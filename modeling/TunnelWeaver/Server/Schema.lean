import TunnelWeaver.Account.Requests
import TunnelWeaver.Lib.Relational
import TunnelWeaver.Server.Directory

/-! The tables of `store/migration` that foreign keys connect, with these keys. -/

namespace TunnelWeaver.Server

open Relational
open Account (AccountRow EmailIdentity PasswordCredential BrowserSession PasswordResetToken AuthEvent
  LoginChallenge PasskeyCredential TotpCredential ExternalIdentity SsoFlow)

inductive Tab
  | account
  | emailIdentity
  | emailVerification
  | verificationToken
  | pendingRegistration
  | passwordCredential
  | browserSession
  | passwordResetToken
  | authEvent
  | loginChallenge
  | passkeyCredential
  | totpCredential
  | externalIdentity
  | ssoFlow
  | person
  | machine
  | machineKeyLog
  | service
  | domain
  | usageLive
  | usageDaily
  | altchaClient
  deriving DecidableEq

instance : Fintype Tab :=
  .ofList [.account, .emailIdentity, .emailVerification, .verificationToken, .pendingRegistration,
    .passwordCredential, .browserSession, .passwordResetToken, .authEvent, .loginChallenge,
    .passkeyCredential, .totpCredential, .externalIdentity, .ssoFlow, .person, .machine,
    .machineKeyLog, .service, .domain, .usageLive, .usageDaily, .altchaClient]
    fun t => by cases t <;> decide

/-! ## Rows -/

structure PendingRegistration where
  flowId : String
  name : String
  email : String
  lookupKey : String
  createdAt : Int
  expiresAt : Int
  completedAt : Option Int := none
  provedByTokenId : Option Nat := none

/-- A link sent for a pending registration. -/
structure VerificationToken extends Account.VerificationToken where
  pendingRegistrationId : Nat
  emailLookupKey : String

structure EmailVerification where
  accountId : Nat
  emailIdentityId : Nat
  tokenId : Nat
  verifiedAt : Int

/-- A row of either usage table, by service and day. -/
structure UsageRow where
  serviceId : Nat
  day : Int
  counters : List Int

structure AltchaClient where
  publicKey : String
  secret : String
  serviceId : Option Nat
  revokedAt : Option Int

def Row : Tab → Type
  | .account => AccountRow
  | .emailIdentity => EmailIdentity
  | .emailVerification => EmailVerification
  | .verificationToken => VerificationToken
  | .pendingRegistration => PendingRegistration
  | .passwordCredential => PasswordCredential
  | .browserSession => BrowserSession
  | .passwordResetToken => PasswordResetToken
  | .authEvent => AuthEvent
  | .loginChallenge => LoginChallenge
  | .passkeyCredential => PasskeyCredential
  | .totpCredential => TotpCredential
  | .externalIdentity => ExternalIdentity
  | .ssoFlow => SsoFlow
  | .person => PersonRow
  | .machine => MachineRow
  | .machineKeyLog => KeyLogRow
  | .service => ServiceRow
  | .domain => DomainRow
  | .usageLive | .usageDaily => UsageRow
  | .altchaClient => AltchaClient

/-! ## Foreign keys -/

/-- The session of a sign-in code. -/
def challengeSession (c : LoginChallenge) : Option Nat :=
  match c.flow with
  | .session id => some id
  | .pendingRegistration _ => none

/-- The pending registration of an address check. -/
def challengePending (c : LoginChallenge) : Option Nat :=
  match c.flow with
  | .session _ => none
  | .pendingRegistration id => some id

/-- The account an account-scoped row belongs to. -/
def accountOf : (t : Tab) → Row t → Option Nat
  | .emailIdentity, (r : EmailIdentity) => some r.accountId
  | .emailVerification, (r : EmailVerification) => some r.accountId
  | .passwordCredential, (r : PasswordCredential) => some r.accountId
  | .browserSession, (r : BrowserSession) => some r.accountId
  | .passwordResetToken, (r : PasswordResetToken) => some r.accountId
  | .authEvent, (r : AuthEvent) => r.accountId
  | .passkeyCredential, (r : PasskeyCredential) => some r.accountId
  | .totpCredential, (r : TotpCredential) => some r.accountId
  | .externalIdentity, (r : ExternalIdentity) => some r.accountId
  | .person, (r : PersonRow) => some r.accountId
  | _, _ => none

def cascades : (t : Tab) → List (Reference Tab (Row t))
  | .account | .pendingRegistration | .ssoFlow | .machineKeyLog | .domain | .altchaClient => []
  | .emailVerification =>
    [⟨.account, accountOf .emailVerification⟩,
      ⟨.emailIdentity, fun (r : EmailVerification) => some r.emailIdentityId⟩]
  | .verificationToken =>
    [⟨.pendingRegistration, fun (r : VerificationToken) => some r.pendingRegistrationId⟩]
  | .loginChallenge => [⟨.browserSession, challengeSession⟩, ⟨.pendingRegistration, challengePending⟩]
  | .machine => [⟨.person, fun (r : MachineRow) => some r.personId⟩]
  | .service => [⟨.machine, fun (r : ServiceRow) => some r.machineId⟩]
  | .usageLive => [⟨.service, fun (r : UsageRow) => some r.serviceId⟩]
  | .usageDaily => [⟨.service, fun (r : UsageRow) => some r.serviceId⟩]
  | t => [⟨.account, accountOf t⟩]

def restricts : (t : Tab) → List (Reference Tab (Row t))
  | .emailVerification => [⟨.verificationToken, fun (r : EmailVerification) => some r.tokenId⟩]
  | _ => []

def nulls : (t : Tab) → Option (Reference Tab (Row t))
  | .domain => some ⟨.service, DomainRow.serviceId⟩
  | .altchaClient => some ⟨.service, AltchaClient.serviceId⟩
  | _ => none

def clear : (t : Tab) → Row t → Row t
  | .domain, (r : DomainRow) => { r with serviceId := none }
  | .altchaClient, (r : AltchaClient) => { r with serviceId := none }
  | _, r => r

def rank : Tab → Nat
  | .account | .pendingRegistration | .ssoFlow | .machineKeyLog | .domain | .altchaClient => 0
  | .emailVerification | .loginChallenge | .machine => 2
  | .service => 3
  | .usageLive | .usageDaily => 4
  | _ => 1

/-- The foreign keys of the migrations. -/
def schema : Schema Tab where
  Row := Row
  cascades := cascades
  restricts := restricts
  nulls := nulls
  clear := clear
  rank := rank
  descends := by
    intro t k hk
    cases t <;> simp [cascades] at hk <;> rcases hk with rfl | rfl <;> decide
  clear_null := by
    intro t k hk r
    cases t <;> cases hk <;> rfl
  clear_cascade := by
    intro t k hk r
    cases t <;> first | rfl | cases hk
  clear_restrict := by
    intro t k hk r
    cases t <;> first | rfl | cases hk

abbrev Db := schema.Db

end TunnelWeaver.Server
