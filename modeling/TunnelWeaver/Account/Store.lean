import TunnelWeaver.Lib.Automaton
import TunnelWeaver.Lib.Table

/-! The tables of the account plane and the operations of `store/account.rs` and `store/signup.rs`
on them. An operation is one statement or one immediate transaction, so it takes its effect at one
instant; a transaction that is rolled back leaves the tables as they were. -/

namespace TunnelWeaver.Account

/-- An auto-increment primary key. -/
abbrev RowId := Nat

inductive Decision
  | allow
  | deny
  deriving DecidableEq

/-- Why a creation was refused. -/
inductive SignupRefusal
  | rule (number : Int)
  | default
  | unverifiedAddress
  deriving DecidableEq

inductive SignupDecision
  | allowed
  | denied (refusal : SignupRefusal)
  deriving DecidableEq

inductive StoreError
  | db
  | conflict (message : String)
  | signupRefused (refusal : SignupRefusal)
  deriving DecidableEq

/-- Which part of an address a signup rule matches. -/
inductive RuleKind
  | email
  | domain
  deriving DecidableEq

structure SignupRule where
  number : Int
  decision : Decision
  kind : RuleKind
  value : String
  deriving DecidableEq

/-- Why an emailed code was issued. -/
inductive Purpose
  | verifyAddress
  | signIn
  deriving DecidableEq

/-- The flow an emailed code belongs to. -/
inductive Flow
  | session (id : RowId)
  | pendingRegistration (id : RowId)
  deriving DecidableEq

/-- Which half of the protocol a pending identity-provider flow is for. -/
inductive FlowKind
  | signIn
  | stepUp
  deriving DecidableEq

/-- The kind of an `auth_event` row. -/
inductive EventKind
  | password
  | passwordConfirmed
  | passwordConfirmFailed
  | emailOtpIssued
  | emailOtp
  | emailOtpFailed
  | totp
  | totpFailed
  | passkey
  | passkeyUserVerification
  | passkeyFailed
  | identityProvider
  | identityProviderMfa
  | identityProviderPresence
  | ssoFailed
  | identityProviderGrantInvalid
  | loginFailed
  | logout
  deriving DecidableEq

/-! ## Rows -/

structure AccountRow where
  name : String
  deriving DecidableEq

structure EmailIdentity where
  accountId : RowId
  email : String
  lookupKey : String
  verifiedAt : Option Int
  deriving DecidableEq

structure ExternalIdentity where
  accountId : RowId
  provider : String
  tenantId : String
  subject : String
  email : String
  emailVerifiedAt : Option Int
  /-- The sealed refresh grant, empty when there is none. -/
  refreshToken : String := ""
  deriving DecidableEq

structure PasswordCredential where
  accountId : RowId
  encodedHash : String
  createdAt : Int
  retiredAt : Option Int
  deriving DecidableEq

structure BrowserSession where
  accountId : RowId
  tokenHash : String
  provider : String
  createdAt : Int
  expiresAt : Int
  invalidatedAt : Option Int
  deriving DecidableEq

/-- Unexpired and not invalidated. -/
def BrowserSession.live (b : BrowserSession) (now : Int) : Bool :=
  b.invalidatedAt.isNone && now < b.expiresAt

def BrowserSession.invalidate (now : Int) (b : BrowserSession) : BrowserSession :=
  { b with invalidatedAt := some now }

structure PasswordResetToken where
  accountId : RowId
  tokenDigest : String
  issuedAt : Int
  expiresAt : Int
  consumedAt : Option Int
  revokedAt : Option Int
  deriving DecidableEq

/-- Neither spent nor revoked nor expired. -/
def PasswordResetToken.usable (t : PasswordResetToken) (now : Int) : Bool :=
  t.consumedAt.isNone && t.revokedAt.isNone && now < t.expiresAt

structure VerificationToken where
  tokenDigest : String
  expiresAt : Int
  consumedAt : Option Int
  revokedAt : Option Int
  deriving DecidableEq

/-- A token that was neither spent nor revoked and has not expired. -/
def VerificationToken.usable (t : VerificationToken) (now : Int) : Bool :=
  t.consumedAt.isNone && t.revokedAt.isNone && now < t.expiresAt

structure LoginChallenge where
  flow : Flow
  purpose : Purpose
  codeHash : String
  expiresAt : Int
  attempts : Int
  maxAttempts : Int
  lastSentAt : Int
  consumedAt : Option Int
  deriving DecidableEq

structure SsoFlow where
  handle : String
  kind : FlowKind
  provider : String
  nonce : String
  codeVerifier : String
  returnPath : String
  accountId : Option RowId
  sessionId : Option RowId
  expiresAt : Int
  consumedAt : Option Int
  deriving DecidableEq

structure AuthEvent where
  accountId : Option RowId
  sessionId : Option RowId
  kind : EventKind
  occurredAt : Int
  deriving DecidableEq

structure Store where
  accounts : Table AccountRow := ∅
  emails : Table EmailIdentity := ∅
  externals : Table ExternalIdentity := ∅
  credentials : Table PasswordCredential := ∅
  sessions : Table BrowserSession := ∅
  resetTokens : Table PasswordResetToken := ∅
  verificationTokens : Table VerificationToken := ∅
  challenges : Table LoginChallenge := ∅
  flows : Table SsoFlow := ∅
  events : Table AuthEvent := ∅
  /-- In evaluation order. -/
  signupRules : List SignupRule := []
  /-- The configured default decision. -/
  signupPolicy : Option Decision := none

namespace Store

/-! ## Accounts and addresses -/

def accountById (s : Store) (id : RowId) : Option AccountRow := s.accounts.get? id

def emailIdentityFind (s : Store) (lookupKey : String) : Option (RowId × EmailIdentity) :=
  s.emails.find? fun _ e => e.lookupKey = lookupKey

def emailIdentityForAccount (s : Store) (accountId : RowId) : Option (RowId × EmailIdentity) :=
  s.emails.find? fun _ e => e.accountId = accountId

/-- A no-op when the address already is verified. -/
def emailIdentityMarkVerified (s : Store) (accountId : RowId) (now : Int) : Store :=
  { s with
    emails := s.emails.update (fun _ e => e.accountId = accountId && e.verifiedAt.isNone)
      fun e => { e with verifiedAt := some now } }

/-- Delete an account row and every row that references it. -/
def deleteAccountRow (s : Store) (id : RowId) : Store :=
  { s with
    accounts := s.accounts.delete fun i _ => i = id
    emails := s.emails.delete fun _ e => e.accountId = id
    externals := s.externals.delete fun _ e => e.accountId = id
    credentials := s.credentials.delete fun _ c => c.accountId = id
    sessions := s.sessions.delete fun _ b => b.accountId = id
    resetTokens := s.resetTokens.delete fun _ t => t.accountId = id
    challenges := s.challenges.delete fun _ c => match c.flow with
      | .session i => (s.sessions.get? i).any (·.accountId = id)
      | .pendingRegistration _ => false
    events := s.events.delete fun _ e => e.accountId = some id }

def deleteAccount (s : Store) (accountId : RowId) : Store :=
  match s.accountById accountId with
  | none => s
  | some _ => s.deleteAccountRow accountId

/-- Claim an address, unless an account already has it; whether a row was written. -/
def claimAddress (s : Store) (accountId : RowId) (email lookupKey : String)
    (verifiedAt : Option Int) : Store × Bool :=
  match s.emailIdentityFind lookupKey with
  | some _ => (s, false)
  | none => ({ s with emails := s.emails.insert { accountId, email, lookupKey, verifiedAt } }, true)

/-! ## Signup policy -/

/-- The part of an address after the last `@`. -/
def domainOf (address : String) : String :=
  if '@' ∈ address.toList then
    String.ofList (address.toList.reverse.takeWhile (· ≠ '@')).reverse
  else ""

/-- Allow when no policy was ever configured. -/
def signupDefault (s : Store) : Decision := s.signupPolicy.getD .allow

/-- `normalize` is `normalize_address`: trim and lowercase. -/
def signupDecision (normalize : String → String) (s : Store) (lookupKey : String) :
    SignupDecision :=
  let key := normalize lookupKey
  match s.signupRules.find? fun rule => match rule.kind with
      | .email => rule.value = key
      | .domain => rule.value = domainOf key with
  | some rule => match rule.decision with
    | .allow => .allowed
    | .deny => .denied (.rule rule.number)
  | none => match s.signupDefault with
    | .allow => .allowed
    | .deny => .denied .default

/-- Whether the policy would refuse anyone at all. -/
def signupPolicyRestrictive (s : Store) : Bool :=
  s.signupDefault = .deny || !s.signupRules.isEmpty

/-- The decision for an identity-provider assertion that would create an account. -/
def signupAdmit (normalize : String → String) (s : Store) (lookupKey : String)
    (addressVerified : Bool) : SignupDecision :=
  if !addressVerified && s.signupPolicyRestrictive then .denied .unverifiedAddress
  else s.signupDecision normalize lookupKey

/-! ## Activation -/

structure ActivationRequest where
  consumeTokenId : RowId
  name : String
  email : String
  lookupKey : String
  encodedHash : String
  now : Int
  deriving DecidableEq

inductive ActivationOutcome
  | activated (account : RowId)
  | existingAccount (account : RowId)
  deriving DecidableEq

/-- Activate a verified signup. -/
def accountActivate (normalize : String → String) (s : Store) (req : ActivationRequest) :
    Store × Except StoreError ActivationOutcome :=
  match s.signupDecision normalize req.lookupKey with
  | .denied refusal => (s, .error (.signupRefused refusal))
  | .allowed =>
    let spend := fun i (t : VerificationToken) => i = req.consumeTokenId && t.usable req.now
    if s.verificationTokens.count spend = 0 then
      (s, .error (.conflict "verification token is already spent or expired"))
    else
      let s₁ := { s with
        verificationTokens := s.verificationTokens.update spend fun t =>
          { t with consumedAt := some req.now } }
      let created := s₁.accounts.next
      let s₂ := { s₁ with accounts := s₁.accounts.insert { name := req.name } }
      match s₂.claimAddress created req.email req.lookupKey (some req.now) with
      | (s₃, true) =>
        ({ s₃ with
            credentials := s₃.credentials.insert
              { accountId := created, encodedHash := req.encodedHash, createdAt := req.now
                retiredAt := none } },
          .ok (.activated created))
      | (s₃, false) =>
        let s₄ := s₃.deleteAccountRow created
        match s₄.emailIdentityFind req.lookupKey with
        | none => (s, .error (.conflict "address associated with a missing identity"))
        | some (_, identity) =>
          match s₄.accountById identity.accountId with
          | none => (s, .error (.conflict "identity references a missing account"))
          | some _ => (s₄, .ok (.existingAccount identity.accountId))

/-! ## External identities -/

structure NewExternalIdentity where
  provider : String
  tenantId : String
  subject : String
  name : String
  email : String
  lookupKey : String
  emailVerifiedAt : Option Int
  sealedRefresh : String := ""
  deriving DecidableEq

structure ExternalSignIn where
  account : RowId
  created : Bool
  deriving DecidableEq

/-- The row under the provider's durable key. -/
def externalIdentityFind (s : Store) (req : NewExternalIdentity) :
    Option (RowId × ExternalIdentity) :=
  s.externals.find? fun _ e =>
    e.provider = req.provider && e.tenantId = req.tenantId && e.subject = req.subject

/-- The row that links an account. -/
def NewExternalIdentity.row (req : NewExternalIdentity) (accountId : RowId) : ExternalIdentity :=
  { accountId, provider := req.provider, tenantId := req.tenantId, subject := req.subject
    email := req.email, emailVerifiedAt := req.emailVerifiedAt, refreshToken := req.sealedRefresh }

/-- Insert one external identity, ignoring a durable key that is taken. -/
def externalIdentityInsert (s : Store) (accountId : RowId) (req : NewExternalIdentity) : Store :=
  match s.externalIdentityFind req with
  | some _ => s
  | none => { s with externals := s.externals.insert (req.row accountId) }

def missingAccount : StoreError := .conflict "identity references a missing account"

/-- Link the identity to the account that has the address. -/
def linkExisting (s : Store) (accountId : RowId) (req : NewExternalIdentity) :
    Store × Except StoreError ExternalSignIn :=
  match s.accountById accountId with
  | none => (s, .error missingAccount)
  | some _ => (s.externalIdentityInsert accountId req, .ok ⟨accountId, false⟩)

/-- Resolve an external sign-in to an account, creating one when the identity and its address are
both new. -/
def externalIdentityResolveOrCreate (normalize : String → String) (s : Store)
    (req : NewExternalIdentity) : Store × Except StoreError ExternalSignIn :=
  match s.externalIdentityFind req with
  | some (_, identity) =>
    match s.accountById identity.accountId with
    | none => (s, .error missingAccount)
    | some _ => (s, .ok ⟨identity.accountId, false⟩)
  | none =>
    match (if req.emailVerifiedAt.isSome then s.emailIdentityFind req.lookupKey else none) with
    | some (_, existing) => s.linkExisting existing.accountId req
    | none =>
      match s.signupAdmit normalize req.lookupKey req.emailVerifiedAt.isSome with
      | .denied refusal => (s, .error (.signupRefused refusal))
      | .allowed =>
        let created := s.accounts.next
        let s₁ := { s with accounts := s.accounts.insert { name := req.name } }
        let s₂ := s₁.externalIdentityInsert created req
        if req.lookupKey = "" then (s₂, .ok ⟨created, true⟩)
        else match s₂.claimAddress created req.email req.lookupKey req.emailVerifiedAt with
          | (s₃, true) => (s₃, .ok ⟨created, true⟩)
          | (s₃, false) =>
            let s₄ := s₃.deleteAccountRow created
            if req.emailVerifiedAt.isNone then
              (s, .error (.conflict "address is already associated with an account"))
            else match s₄.emailIdentityFind req.lookupKey with
              | none => (s, .error (.conflict "address lost after a conflict"))
              | some (_, existing) =>
                match s₄.linkExisting existing.accountId req with
                | (_, .error e) => (s, .error e)
                | (s₅, .ok signIn) => (s₅, .ok signIn)

def externalIdentityForAccount (s : Store) (accountId : RowId) : List ExternalIdentity :=
  (s.externals.rows.map (·.2)).filter (·.accountId = accountId)

/-! ## Sessions -/

/-- `token_hash` is unique and `account_id` references an account. -/
def sessionCreate (s : Store) (accountId : RowId) (tokenHash provider : String)
    (createdAt expiresAt : Int) : Store × Except StoreError RowId :=
  if (s.accountById accountId).isNone
      || (s.sessions.find? fun _ b => b.tokenHash = tokenHash).isSome then (s, .error .db)
  else
    ({ s with
        sessions := s.sessions.insert
          { accountId, tokenHash, provider, createdAt, expiresAt, invalidatedAt := none } },
      .ok s.sessions.next)

def sessionLive (s : Store) (tokenHash : String) (now : Int) : Option (RowId × BrowserSession) :=
  s.sessions.find? fun _ b => b.tokenHash = tokenHash && b.live now

def sessionInvalidate (s : Store) (tokenHash : String) (now : Int) : Store :=
  { s with
    sessions := s.sessions.update
      (fun _ b => b.tokenHash = tokenHash && b.invalidatedAt.isNone) (.invalidate now) }

def invalidateSessionsForAccount (s : Store) (accountId : RowId) (now : Int) : Store :=
  { s with
    sessions := s.sessions.update
      (fun _ b => b.accountId = accountId && b.invalidatedAt.isNone) (.invalidate now) }

/-- Append one row to the authentication trail; an account it names must exist. -/
def authEventInsert (s : Store) (event : AuthEvent) : Store × Bool :=
  if event.accountId.any fun id => (s.accountById id).isNone then (s, false)
  else ({ s with events := s.events.insert event }, true)

/-! ## Credentials -/

/-- The rows of an account with `retired_at` null. -/
def current (accountId : RowId) (_ : RowId) (c : PasswordCredential) : Bool :=
  c.accountId = accountId && c.retiredAt.isNone

def passwordCurrentFor (s : Store) (accountId : RowId) : Option (RowId × PasswordCredential) :=
  s.credentials.find? (current accountId)

/-- Retire the current credential of an account, write the replacement and end every session. -/
def rotateCredential (s : Store) (accountId : RowId) (encodedHash : String) (now : Int) :
    Except StoreError Store :=
  if s.credentials.count (current accountId) ≠ 1 then
    .error (.conflict "account has no live password credential to rotate")
  else
    let retired := s.credentials.update (current accountId) fun c =>
      { c with retiredAt := some now }
    let s₁ := { s with
      credentials := retired.insert { accountId, encodedHash, createdAt := now, retiredAt := none } }
    let s₂ := s₁.invalidateSessionsForAccount accountId now
    match s₂.accountById accountId with
    | none => .error (.conflict "account missing during credential rotation")
    | some _ => .ok s₂

def accountChangePassword (s : Store) (accountId : RowId) (encodedHash : String) (now : Int) :
    Store × Except StoreError Unit :=
  match s.rotateCredential accountId encodedHash now with
  | .error e => (s, .error e)
  | .ok s' => (s', .ok ())

/-- Issue a reset token, revoking the outstanding ones of the account. -/
def passwordResetTokenIssue (s : Store) (accountId : RowId) (tokenDigest : String)
    (issuedAt expiresAt : Int) : Store :=
  let outstanding := fun _ (t : PasswordResetToken) =>
    t.accountId = accountId && t.consumedAt.isNone && t.revokedAt.isNone
  if (s.accountById accountId).isNone
      || (s.resetTokens.find? fun _ t => t.tokenDigest = tokenDigest).isSome then s
  else { s with
    resetTokens :=
      (s.resetTokens.update outstanding fun t => { t with revokedAt := some issuedAt }).insert
        { accountId, tokenDigest, issuedAt, expiresAt, consumedAt := none, revokedAt := none } }

def passwordResetTokenByDigest (s : Store) (tokenDigest : String) :
    Option (RowId × PasswordResetToken) :=
  s.resetTokens.find? fun _ t => t.tokenDigest = tokenDigest

def accountResetPassword (s : Store) (tokenId : RowId) (encodedHash : String) (now : Int) :
    Store × Except StoreError Unit :=
  let spend := fun i (t : PasswordResetToken) => i = tokenId && t.usable now
  if s.resetTokens.count spend = 0 then
    (s, .error (.conflict "reset token is already spent, revoked, or expired"))
  else
    let s₁ := { s with
      resetTokens := s.resetTokens.update spend fun t => { t with consumedAt := some now } }
    match s₁.resetTokens.get? tokenId with
    | none => (s, .error (.conflict "reset token vanished after consume"))
    | some token =>
      match s₁.rotateCredential token.accountId encodedHash now with
      | .error e => (s, .error e)
      | .ok s₂ => (s₂, .ok ())

/-! ## What activations and external sign-ins do -/

variable {s : Store}

/-- An activation changes nothing, or makes an account with a verified address and a credential, or
makes a placeholder for an address that is taken and removes it again. -/
theorem accountActivate_cases (normalize : String → String) (req : ActivationRequest) :
    (s.accountActivate normalize req).1 = s ∨
    ∃ verificationTokens,
      (s.emailIdentityFind req.lookupKey = none ∧
        (s.accountActivate normalize req).1 = { s with
          verificationTokens
          accounts := s.accounts.insert { name := req.name }
          emails := s.emails.insert { accountId := s.accounts.next, email := req.email
                                      lookupKey := req.lookupKey, verifiedAt := some req.now }
          credentials := s.credentials.insert
            { accountId := s.accounts.next, encodedHash := req.encodedHash, createdAt := req.now
              retiredAt := none } }) ∨
      (s.accountActivate normalize req).1 =
        { s with
          verificationTokens
          accounts := s.accounts.insert { name := req.name } }.deleteAccountRow s.accounts.next := by
  unfold accountActivate
  split
  · exact .inl rfl
  dsimp only
  split
  · exact .inl rfl
  unfold claimAddress
  dsimp only
  split
  · rename_i s₃ hclaim
    split at hclaim
    · cases hclaim
    · rename_i hfree
      cases hclaim
      exact .inr ⟨_, .inl ⟨hfree, rfl⟩⟩
  · rename_i s₃ hclaim
    split at hclaim
    · cases hclaim
      split
      · exact .inl rfl
      · split
        · exact .inl rfl
        · exact .inr ⟨_, .inr rfl⟩
    · cases hclaim

/-- An external sign-in changes nothing, or links the identity to the account that has the address,
or makes an account for the identity. -/
theorem externalIdentityResolveOrCreate_cases (normalize : String → String)
    (req : NewExternalIdentity) :
    (s.externalIdentityResolveOrCreate normalize req).1 = s ∨
    s.externalIdentityFind req = none ∧
      ((∃ j existing, req.emailVerifiedAt.isSome ∧
        s.emailIdentityFind req.lookupKey = some (j, existing) ∧
        (s.accountById existing.accountId).isSome ∧
        (s.externalIdentityResolveOrCreate normalize req).1 = { s with
          externals := s.externals.insert (req.row existing.accountId) }) ∨
      (req.lookupKey = "" ∨ s.emailIdentityFind req.lookupKey = none) ∧
        (s.externalIdentityResolveOrCreate normalize req).1 = { s with
          accounts := s.accounts.insert { name := req.name }
          externals := s.externals.insert (req.row s.accounts.next)
          emails := if req.lookupKey = "" then s.emails else s.emails.insert
            { accountId := s.accounts.next, email := req.email, lookupKey := req.lookupKey
              verifiedAt := req.emailVerifiedAt } }) := by
  unfold externalIdentityResolveOrCreate
  split
  · split <;> exact .inl rfl
  rename_i hfind
  split
  · rename_i existing hexisting
    split at hexisting
    · rename_i hvouched
      unfold linkExisting
      split
      · exact .inl rfl
      · rename_i haccount
        rw [externalIdentityInsert, hfind]
        exact .inr ⟨rfl, .inl ⟨_, _, hvouched, hexisting, by rw [haccount]; rfl, rfl⟩⟩
    · cases hexisting
  rename_i hnone
  split
  · exact .inl rfl
  dsimp only
  have hinsert : externalIdentityInsert
      { s with accounts := s.accounts.insert { name := req.name } } s.accounts.next req =
      { s with
        accounts := s.accounts.insert { name := req.name }
        externals := s.externals.insert (req.row s.accounts.next) } := by
    have hfind' : externalIdentityFind
        { s with accounts := s.accounts.insert { name := req.name } } req = none := hfind
    rw [externalIdentityInsert, hfind']
  rw [hinsert]
  split
  · rename_i hempty
    exact .inr ⟨hfind, .inr ⟨.inl hempty, rfl⟩⟩
  unfold claimAddress
  split
  · rename_i s₃ hclaim
    split at hclaim
    · cases hclaim
    · rename_i hfree
      cases hclaim
      exact .inr ⟨hfind, .inr ⟨.inr hfree, rfl⟩⟩
  · -- An address that is taken here was not vouched for: the sign-in is rolled back.
    rename_i s₃ hclaim
    split at hclaim
    · rename_i htaken
      split
      · exact .inl rfl
      · rename_i hvouched
        have htaken' : s.emailIdentityFind req.lookupKey = some _ := htaken
        rw [if_pos (by simpa [Option.isSome_iff_ne_none] using hvouched), htaken'] at hnone
        cases hnone
    · cases hclaim

end Store

end TunnelWeaver.Account
