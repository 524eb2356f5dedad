import TunnelWeaver.Account.Levels

/-! The sign-in and step-up requests of the account API: the gate, the identity-provider flow of
`account/sso`, the emailed code, the authenticator app, the password confirmation and the passkey
ceremonies. Any number of browsers send requests, each with the session cookie it holds. A request
is served at one instant; each of its store calls may fail, which the request lists. What is random
in the source (tokens, handles, codes) is part of the request. -/

namespace TunnelWeaver.Account

open Automaton

/-- A call of a handler that can fail. -/
inductive Call
  | sessionRead
  | sessionReread
  | trailRead
  | flowCreate
  | flowTake
  | resolveIdentity
  | addressRead
  | accountRead
  | externalRead
  | sessionCreate
  | sessionReadBack
  | sessionInvalidate
  | event (kind : EventKind)
  | recordLogin
  | challengeRead
  | challengeUpsert
  | challengeConsume
  | challengeAttempt
  | mail
  | markVerified
  | totpRead
  | totpRecordUse
  | passwordRead
  | passkeyRead
  | passkeyRecordUse
  | passkeyCreate
  deriving DecidableEq

/-- How a provider is reached. -/
inductive Entry
  | redirect
  | token
  deriving DecidableEq

inductive Prompt
  | signIn
  | stepUp (maxAge : Int)
  deriving DecidableEq

/-- What the pipeline knows of a completed sign-in at the provider. -/
structure Assertion where
  provider : String
  tenant : String
  subject : String
  /-- The address, and whether the provider vouched for it. -/
  address : Option (String × Bool)
  name : String
  mfa : Bool
  authTime : Option Int
  /-- A refresh grant to keep, when the provider issued one. -/
  refreshGrant : Option String := none
  deriving DecidableEq

inductive ProviderError
  | refused (reason detail : String)
  | unavailable
  deriving DecidableEq

/-- The pending half of a flow, as a provider sees it. -/
structure PendingFlow where
  state : String
  nonce : String
  codeVerifier : String
  redirectUri : String
  deriving DecidableEq

/-- The browser's answer to a passkey ceremony. -/
structure PublicKeyCredential where
  id : String
  userHandle : String
  response : String
  deriving DecidableEq

/-- `AccountRuntime`: the configuration, and what is outside the store. -/
structure Runtime where
  sessionTtlSecs : Int
  confirmWindowSecs : Int
  resendCooldownSecs : Int
  baseUrl : String
  /-- The enabled identity providers. -/
  providers : String → Option Entry
  authorizeUrl : String → PendingFlow → Prompt → Except ProviderError String
  redeem : String → String → PendingFlow → Except ProviderError Assertion
  /-- `seal_refresh` and `open`: a refresh grant as it is stored. -/
  sealRefresh : (provider token : String) → Option String
  openRefresh : (provider stored : String) → Option String
  tokenHash : String → String
  /-- The hash of the trimmed code. -/
  hashCode : String → String
  normalize : String → String
  passwordVerify : (password encodedHash : String) → Bool
  /-- `totp::open`: unseal the secret of an account. -/
  openSecret : RowId → String → Option String
  matchCode : (secret candidate : String) → Int → Option Int
  /-- `webauthn-rs`: whether the answer verifies against the ceremony, and whether the person was
  verified. -/
  finishAuthentication : (challenge : String) → PublicKeyCredential → Option Bool
  finishDiscoverable : (challenge : String) → PublicKeyCredential → (stored : String) → Option Bool
  /-- The credential id and the serialised credential of a registration. -/
  finishRegistration : (challenge : String) → PublicKeyCredential → Option (String × String)
  userHandle : RowId → String

structure PasskeyCredential where
  accountId : RowId
  credentialId : String
  credential : String
  userUniqueId : String
  deriving DecidableEq

structure TotpCredential where
  accountId : RowId
  secret : String
  confirmedAt : Option Int
  lastUsedStep : Option Int
  createdAt : Int
  deriving DecidableEq

/-- A ceremony that has been started and not yet finished. -/
inductive Pending
  | register (account : RowId) (challenge : String)
  | assert (account : RowId) (challenge : String)
  | discover (challenge : String)
  deriving DecidableEq

structure SessionContext where
  sessionId : RowId
  accountId : RowId
  deriving DecidableEq

inductive Body
  | begin (provider state nonce verifier : String)
  | stepUp (provider returnPath state nonce verifier : String)
  | callback (provider code state error token otp : String)
  | loginVerify (code : String)
  | loginResend (otp : String)
  | loginTotp (code : String)
  | confirmPassword (password : String)
  | passkeySigninBegin (email handle challenge : String)
  | passkeySigninFinish (handle : String) (credential : PublicKeyCredential) (token : String)
  | passkeyStepupBegin (handle challenge : String)
  | passkeyStepupFinish (handle : String) (credential : PublicKeyCredential)
  | passkeyRegisterBegin (handle challenge : String)
  | passkeyRegisterFinish (handle : String) (credential : PublicKeyCredential)
  deriving DecidableEq

structure Request where
  browser : Nat
  now : Int
  /-- The headers pass `origin_ok`. -/
  originOk : Bool
  /-- The headers pass `csrf_ok`. -/
  csrfOk : Bool
  /-- The calls that fail while the request is served. -/
  down : List Call
  body : Body
  deriving DecidableEq

def Request.fails (r : Request) (call : Call) : Bool := call ∈ r.down

structure Reply where
  status : Nat
  /-- The error, or where a redirect leads. -/
  text : String := ""
  /-- The session cookie it sets. -/
  cookie : Option String := none
  deriving DecidableEq

def Reply.err (status : Nat) (text : String) : Reply := { status, text }

def Reply.redirect (location : String) : Reply := { status := 302, text := location }

def Reply.unavailable : Reply := .err 503 "temporarily unavailable"

structure Site where
  store : Store := {}
  passkeys : Table PasskeyCredential := ∅
  totps : Table TotpCredential := ∅
  /-- Started ceremonies by handle, with the instant each expires. -/
  ceremonies : List (String × Pending × Int) := []
  /-- The session cookie each browser holds. -/
  cookies : Nat → Option String := fun _ => none

/-! ## Store operations -/

namespace Store

def ssoFlowCreate (s : Store) (flow : SsoFlow) : Store × Bool :=
  match s.flows.find? fun _ f => f.handle = flow.handle with
  | some _ => (s, false)
  | none => ({ s with flows := s.flows.insert flow }, true)

/-- A flow that can still be redeemed with a `state`. -/
def redeemable (handle : String) (now : Int) (_ : RowId) (f : SsoFlow) : Bool :=
  f.handle = handle && f.consumedAt.isNone && now < f.expiresAt

/-- Consume and return a pending flow. -/
def ssoFlowTake (s : Store) (handle : String) (now : Int) : Store × Option SsoFlow :=
  let s' := { s with
    flows := s.flows.update (redeemable handle now) fun f => { f with consumedAt := some now } }
  if s.flows.count (redeemable handle now) ≠ 1 then (s', none)
  else (s', (s'.flows.find? fun _ f => f.handle = handle).map (·.2))

def loginChallengeBySession (s : Store) (sessionId : RowId) : Option (RowId × LoginChallenge) :=
  s.challenges.find? fun _ c => c.flow = .session sessionId

/-- Issue or replace the challenge of a flow. -/
def loginChallengeUpsert (s : Store) (challenge : LoginChallenge) : Store :=
  match s.challenges.find? fun _ c => c.flow = challenge.flow with
  | some (id, _) => { s with challenges := s.challenges.set id challenge }
  | none => { s with challenges := s.challenges.insert challenge }

def loginChallengeConsume (s : Store) (id : RowId) (now : Int) : Store × Bool :=
  let live := fun i (c : LoginChallenge) => i = id && c.consumedAt.isNone
  ({ s with challenges := s.challenges.update live fun c => { c with consumedAt := some now } },
    s.challenges.count live = 1)

def loginChallengeRecordAttempt (s : Store) (id : RowId) (attempts : Int) : Store :=
  { s with
    challenges := s.challenges.update (fun i _ => i = id) fun c => { c with attempts } }

end Store

namespace Site

variable (rt : Runtime)

/-! ## The gate -/

/-- The session the cookie of the request resolves to: `AuthManager::session`. -/
def session (site : Site) (r : Request) : Option SessionContext :=
  if r.fails .sessionRead then none
  else do
    let raw ← site.cookies r.browser
    let (id, b) ← site.store.sessionLive (rt.tokenHash raw) r.now
    let _ ← site.store.accountById b.accountId
    return ⟨id, b.accountId⟩

/-- The situation of a session at an instant. -/
def situation (store : Store) (session : Option SessionContext) (now : Int) : Situation where
  accountId := session.map (·.accountId)
  proofs := match session with
    | none => fun _ => none
    | some c => loadProofs (store.authEventLatestByKind c.sessionId)
  now
  sessionTtlSecs := rt.sessionTtlSecs
  confirmWindowSecs := rt.confirmWindowSecs

/-- What the manager of a request sees; a trail that cannot be read has no proofs. -/
def asked (site : Site) (r : Request) (session : Option SessionContext) : Situation :=
  if r.fails .trailRead then
    { situation rt site.store session r.now with proofs := fun _ => none }
  else situation rt site.store session r.now

/-- `required_level`, by route. -/
def requiredLevel : Body → AuthLevel
  | .begin .. | .callback .. | .passkeySigninBegin .. | .passkeySigninFinish .. => .none
  | .stepUp .. | .loginVerify .. | .loginResend .. | .loginTotp .. | .passkeyStepupBegin ..
  | .passkeyStepupFinish .. => .basic
  | .passkeyRegisterBegin .. | .passkeyRegisterFinish .. => .certain
  | .confirmPassword .. => .strong

/-- Append one event to the trail. -/
def record (site : Site) (r : Request) (kind : EventKind) (accountId sessionId : Option RowId) :
    Site × Bool :=
  if r.fails (.event kind) then (site, false)
  else
    let (store, ok) := site.store.authEventInsert
      { accountId, sessionId, kind, occurredAt := r.now }
    ({ site with store }, ok)

/-- `record` on a session. -/
def recordOn (site : Site) (r : Request) (kind : EventKind) (c : SessionContext) : Site × Bool :=
  site.record r kind (some c.accountId) (some c.sessionId)

/-! ## Opening a session -/

/-- `Sessions::invalidate`. -/
def invalidate (site : Site) (r : Request) (token : String) : Site :=
  if r.fails .sessionInvalidate then site
  else { site with store := site.store.sessionInvalidate (rt.tokenHash token) r.now }

/-- `OpenedSession::open`. -/
def openSession (site : Site) (r : Request) (account : RowId) (token provider : String) :
    Site × Option SessionContext :=
  if r.fails .sessionCreate then (site, none)
  else match site.store.sessionCreate account (rt.tokenHash token) provider r.now
      (r.now + rt.sessionTtlSecs) with
    | (_, .error _) => (site, none)
    | (store, .ok _) =>
      let site := { site with store }
      match (if r.fails .sessionReadBack then none
        else store.sessionLive (rt.tokenHash token) r.now) with
      | none => (site.invalidate rt r token, none)
      | some (id, _) => (site, some ⟨id, account⟩)

def otpTtlSecs : Int := 300

def otpMaxAttempts : Int := 5

/-- `deliver_code` and the record that a code was issued. -/
def deliverCode (site : Site) (r : Request) (c : SessionContext) (purpose : Purpose)
    (otp : String) : Site × Option Reply :=
  if r.fails .challengeUpsert then (site, some .unavailable)
  else
    let site := { site with
      store := site.store.loginChallengeUpsert
        { flow := .session c.sessionId, purpose, codeHash := rt.hashCode otp
          expiresAt := r.now + otpTtlSecs, attempts := 0, maxAttempts := otpMaxAttempts
          lastSentAt := r.now, consumedAt := none } }
    if r.fails .mail then (site, some (.err 503 "we could not send your code; try again"))
    else ((site.recordOn r .emailOtpIssued c).1, none)

def totpConfirmed (site : Site) (account : RowId) : List (RowId × TotpCredential) :=
  site.totps.rows.filter fun e => e.2.accountId = account && e.2.confirmedAt.isSome

/-- A sign-in code is skipped when the account has a confirmed authenticator app. -/
def offerEmailedCode (site : Site) (r : Request) (c : SessionContext) (purpose : Purpose)
    (otp : String) : Site :=
  if purpose = .signIn && !r.fails .totpRead && !(site.totpConfirmed c.accountId).isEmpty then site
  else (site.deliverCode rt r c purpose otp).1

/-! ## The identity provider -/

/-- Why a step of the pipeline did not complete. -/
inductive Failure
  | refused (reason detail : String) (account : Option RowId)
  | unavailable
  deriving DecidableEq

def flowTtlSecs : Int := 600

def landing : String := "/app"

/-- A same-origin return path, or the default landing. -/
def sanitizeReturnPath (candidate : String) : String :=
  match candidate.toList with
  | '/' :: rest =>
    if rest.head? = some '/' || '\\' ∈ rest then landing else candidate
  | _ => landing

def redirectUri (provider : String) : String :=
  s!"{rt.baseUrl}/api/account/sso/{provider}/callback"

/-- `start`: store the pending flow and send the browser to the provider. -/
def start (site : Site) (r : Request) (provider : String) (kind : FlowKind)
    (c : Option SessionContext) (returnPath state nonce verifier : String) (prompt : Prompt) :
    Site × Reply :=
  if r.fails .flowCreate then (site, .unavailable)
  else match site.store.ssoFlowCreate
      { handle := state, kind, provider, nonce, codeVerifier := verifier, returnPath
        accountId := c.map (·.accountId), sessionId := c.map (·.sessionId)
        expiresAt := r.now + flowTtlSecs, consumedAt := none } with
    | (_, false) => (site, .unavailable)
    | (store, true) =>
      match rt.authorizeUrl provider
          { state, nonce, codeVerifier := verifier, redirectUri := redirectUri rt provider }
          prompt with
      | .error _ => ({ site with store }, .unavailable)
      | .ok url => ({ site with store }, .redirect url)

def begin (site : Site) (r : Request) (provider state nonce verifier : String) : Site × Reply :=
  match rt.providers provider with
  | some .redirect => site.start rt r provider .signIn none "" state nonce verifier .signIn
  | _ => (site, .err 404 "not configured")

def stepUp (site : Site) (r : Request) (c : SessionContext)
    (provider returnPath state nonce verifier : String) : Site × Reply :=
  match rt.providers provider with
  | some .redirect => site.start rt r provider .stepUp (some c) (sanitizeReturnPath returnPath)
      state nonce verifier (.stepUp rt.confirmWindowSecs)
  | _ => (site, .err 404 "not configured")

/-- `redeem`: the pending flow, then the provider's assertion. The flow is spent before the
provider is asked. -/
def redeem (site : Site) (r : Request) (provider code state error : String) :
    Site × Except Failure (SsoFlow × Assertion) :=
  if error ≠ "" then (site, .error (.refused "denied" "provider refused" none))
  else if r.fails .flowTake then (site, .error .unavailable)
  else match site.store.ssoFlowTake state r.now with
    | (store, none) =>
      ({ site with store }, .error (.refused "expired" "unknown or expired state" none))
    | (store, some flow) =>
      let site := { site with store }
      if flow.provider ≠ provider then
        (site, .error (.refused "state" "flow belongs to another provider" flow.accountId))
      else if code = "" then (site, .error (.refused "code" "no code" flow.accountId))
      else match rt.redeem provider code
          { state, nonce := flow.nonce, codeVerifier := flow.codeVerifier
            redirectUri := redirectUri rt provider } with
        | .error (.refused reason detail) =>
          (site, .error (.refused reason detail flow.accountId))
        | .error .unavailable => (site, .error .unavailable)
        | .ok assertion => (site, .ok (flow, assertion))

/-- Record the proofs of a sign-in: control of the identity, and the second factor. -/
def proveSignIn (site : Site) (r : Request) (c : SessionContext) (mfa : Bool) : Site × Bool :=
  match site.recordOn r .identityProvider c with
  | (site, false) => (site, false)
  | (site, true) =>
    match (if mfa then site.recordOn r .identityProviderMfa c else (site, true)) with
    | (site, false) => (site, false)
    | (site, true) => (site, !r.fails .recordLogin)

/-- The sign-in of a resolved account: an address nobody has proven is settled by the emailed code,
and the provider's second factor is not taken until it is. -/
def openSignIn (site : Site) (r : Request) (account : RowId) (identity : EmailIdentity)
    (assertion : Assertion) (token otp : String) : Site × Except Failure Reply :=
  let settle := identity.verifiedAt.isNone
  let mfa := assertion.mfa && !settle
  match site.openSession rt r account token assertion.provider with
  | (site, none) => (site, .error .unavailable)
  | (site, some c) =>
    match site.proveSignIn r c mfa with
    | (site, false) => (site.invalidate rt r token, .error .unavailable)
    | (site, true) =>
      let site := if mfa then site
        else site.offerEmailedCode rt r c (if settle then .verifyAddress else .signIn) otp
      (site, .ok { Reply.redirect landing with cookie := some token })

/-- The sign-in half of the callback. -/
def finishSignIn (site : Site) (r : Request) (assertion : Assertion) (token otp : String) :
    Site × Except Failure Reply :=
  match assertion.address with
  | none => (site, .error (.refused "email" "no email in the token" none))
  | some (address, verified) =>
    if r.fails .resolveIdentity then (site, .error .unavailable)
    else match site.store.externalIdentityResolveOrCreate rt.normalize
        { provider := assertion.provider, tenantId := assertion.tenant
          subject := assertion.subject, name := assertion.name, email := address
          lookupKey := rt.normalize address
          emailVerifiedAt := if verified then some r.now else none
          sealedRefresh :=
            (assertion.refreshGrant.bind (rt.sealRefresh assertion.provider)).getD "" } with
      | (_, .error (.signupRefused _)) =>
        (site, .error (.refused "signup_closed" "signup policy denied" none))
      | (_, .error (.conflict _)) =>
        (site, .error (.refused "email" "address already in use" none))
      | (_, .error .db) => (site, .error .unavailable)
      | (store, .ok resolved) =>
        let site := { site with store }
        if r.fails .addressRead then (site, .error .unavailable)
        else match store.emailIdentityForAccount resolved.account with
          | none => (site, .error .unavailable)
          | some (_, identity) =>
            site.openSignIn rt r resolved.account identity assertion token otp

/-- The identity is one the account signed in with. -/
def linked (store : Store) (account : RowId) (assertion : Assertion) : Bool :=
  (store.externalIdentityForAccount account).any fun identity =>
    identity.provider = assertion.provider &&
    identity.tenantId.toLower = assertion.tenant.toLower && identity.subject = assertion.subject

/-- The provider really just re-authenticated the person. -/
def fresh (assertion : Assertion) (now : Int) : Bool :=
  assertion.authTime.any fun authTime => now - authTime ≤ rt.confirmWindowSecs

/-- The step-up half of the callback. -/
def finishStepUp (site : Site) (r : Request) (flow : SsoFlow) (assertion : Assertion) :
    Site × Except Failure Reply :=
  match flow.accountId, flow.sessionId with
  | some account, some session =>
    if r.fails .externalRead then (site, .error .unavailable)
    else if !linked site.store account assertion then
      (site, .error (.refused "identity" "step-up identity mismatch" (some account)))
    else if !fresh rt assertion r.now then
      (site, .error (.refused "stale" "step-up not fresh" (some account)))
    else match site.recordOn r .identityProviderPresence ⟨session, account⟩ with
      | (site, false) => (site, .error .unavailable)
      | (site, true) => (site, .ok (.redirect (sanitizeReturnPath flow.returnPath)))
  | _, _ => (site, .error (.refused "state" "step-up without a session" none))

/-- How the callback answers. -/
def answer (r : Request) : Site × Except Failure Reply → Site × Reply
  | (site, .ok reply) => (site, reply)
  | (site, .error (.refused reason _ account)) =>
    ((site.record r .ssoFailed account none).1, .redirect s!"/sign-in?sso_error={reason}")
  | (site, .error .unavailable) => (site, .unavailable)

/-- `callback` (public): finish a sign-in or a step-up. -/
def callback (site : Site) (r : Request) (provider code state error token otp : String) :
    Site × Reply :=
  match rt.providers provider with
  | none => (site, .redirect "/sign-in?sso_error=disabled")
  | some _ => answer r <|
    match site.redeem rt r provider code state error with
    | (site, .error failure) => (site, .error failure)
    | (site, .ok (flow, assertion)) => match flow.kind with
      | .stepUp => site.finishStepUp rt r flow assertion
      | .signIn => site.finishSignIn rt r assertion token otp

/-! ## Codes and passwords -/

inductive VerifyError
  | wrong
  | expired
  | used
  | tooManyAttempts
  deriving DecidableEq

def VerifyError.message : VerifyError → String
  | wrong => "That code is not right. Check it and try again."
  | expired => "That code has expired. Request a new one."
  | used => "That code has already been used. Request a new one."
  | tooManyAttempts => "Too many tries. Request a new code to continue."

/-- `Challenge::verify` for the flow of a session. -/
def verifyChallenge (site : Site) (r : Request) (sessionId : RowId) (code : String) :
    Site × Except VerifyError Purpose :=
  match (if r.fails .challengeRead then none
    else site.store.loginChallengeBySession sessionId) with
  | none => (site, .error .expired)
  | some (id, challenge) =>
    if challenge.consumedAt.isSome then (site, .error .used)
    else if challenge.expiresAt < r.now then (site, .error .expired)
    else if challenge.maxAttempts ≤ challenge.attempts then (site, .error .tooManyAttempts)
    else if rt.hashCode code = challenge.codeHash then
      if r.fails .challengeConsume then (site, .error .used)
      else match site.store.loginChallengeConsume id r.now with
        | (store, true) => ({ site with store }, .ok challenge.purpose)
        | (store, false) => ({ site with store }, .error .used)
    else
      let attempts := challenge.attempts + 1
      let site := if r.fails .challengeAttempt then site
        else { site with store := site.store.loginChallengeRecordAttempt id attempts }
      (site, .error (if challenge.maxAttempts ≤ attempts then .tooManyAttempts else .wrong))

def loginVerify (site : Site) (r : Request) (c : SessionContext) (code : String) : Site × Reply :=
  match site.verifyChallenge rt r c.sessionId code with
  | (site, .error e) => ((site.recordOn r .emailOtpFailed c).1, .err 400 e.message)
  | (site, .ok purpose) =>
    match site.recordOn r .emailOtp c with
    | (site, false) => (site, .unavailable)
    | (site, true) =>
      let site := if purpose = .verifyAddress && !r.fails .markVerified then
          { site with store := site.store.emailIdentityMarkVerified c.accountId r.now }
        else site
      if r.fails .recordLogin then (site, .unavailable) else (site, { status := 200 })

/-- A re-send preserves the purpose of the existing challenge. -/
def loginResend (site : Site) (r : Request) (c : SessionContext) (otp : String) : Site × Reply :=
  let pending := if r.fails .challengeRead then none
    else (site.store.loginChallengeBySession c.sessionId).map (·.2)
  if pending.any fun p => r.now - p.lastSentAt < rt.resendCooldownSecs then (site, { status := 200 })
  else
    let purpose := (pending.map (·.purpose)).getD .signIn
    if r.fails .addressRead || (site.store.emailIdentityForAccount c.accountId).isNone then
      (site, .unavailable)
    else if r.fails .accountRead || (site.store.accountById c.accountId).isNone then
      (site, .unavailable)
    else match site.deliverCode rt r c purpose otp with
      | (site, some reply) => (site, reply)
      | (site, none) => (site, { status := 200 })

inductive AuthenticatorError
  | wrong
  | used
  | tooManyAttempts
  | unavailable
  deriving DecidableEq

def AuthenticatorError.message : AuthenticatorError → String
  | wrong => "That code is not right. Check it and try again."
  | used => "That code has already been used. Wait for the next one."
  | tooManyAttempts => "Too many tries. Use your emailed code instead."
  | unavailable => "That did not work. Try again in a moment."

def maxWrongCodes : Nat := 5

/-- Record the accepted step of an app, unless it is not newer than the last one. -/
def totpRecordUse (site : Site) (id : RowId) (step : Int) : Site × Bool :=
  let behind := fun i (t : TotpCredential) => i = id && t.lastUsedStep.all (· < step)
  ({ site with totps := site.totps.update behind fun t => { t with lastUsedStep := some step } },
    site.totps.count behind = 1)

/-- `totp::verify`: the first confirmed app whose window the code is in decides. -/
def totpVerify (site : Site) (r : Request) (account : RowId) (code : String) (wrong : Nat) :
    Site × Option AuthenticatorError :=
  if maxWrongCodes ≤ wrong then (site, some .tooManyAttempts)
  else if r.fails .totpRead then (site, some .unavailable)
  else
    let rows := (site.totpConfirmed account).mergeSort fun a b => a.2.createdAt ≤ b.2.createdAt
    match rows.findSome? fun row => do
        let secret ← rt.openSecret account row.2.secret
        let step ← rt.matchCode secret code r.now
        return (row.1, step) with
    | none => (site, some .wrong)
    | some (id, step) =>
      if r.fails .totpRecordUse then (site, some .unavailable)
      else match site.totpRecordUse id step with
        | (site, true) => (site, none)
        | (site, false) => (site, some .used)

def loginTotp (site : Site) (r : Request) (c : SessionContext) (code : String) : Site × Reply :=
  let wrong := if r.fails .trailRead then 0
    else site.store.authEventCountSince c.sessionId .totpFailed (r.now - rt.sessionTtlSecs)
  match site.totpVerify rt r c.accountId code wrong with
  | (site, some .unavailable) => ((site.recordOn r .totpFailed c).1, .unavailable)
  | (site, some e) => ((site.recordOn r .totpFailed c).1, .err 400 e.message)
  | (site, none) =>
    match site.recordOn r .totp c with
    | (site, false) => (site, .unavailable)
    | (site, true) =>
      if r.fails .recordLogin then (site, .unavailable) else (site, { status := 200 })

/-- The row a handler reads again by the cookie, when a step-up is expected of it. -/
def stepUpExpected (site : Site) (r : Request) : Option Reply :=
  match site.cookies r.browser with
  | none => some (.err 401 "not signed in")
  | some raw =>
    match (if r.fails .sessionReread then none
      else site.store.sessionLive (rt.tokenHash raw) r.now) with
    | none => some (.err 401 "not signed in")
    | some (_, row) =>
      if (site.asked rt r (site.session rt r)).stepUpExpected row.expiresAt then none
      else some (.err 409 "this sign-in is already confirmed")

def confirmPassword (site : Site) (r : Request) (c : SessionContext) (password : String) :
    Site × Reply :=
  match site.stepUpExpected rt r with
  | some reply => (site, reply)
  | none =>
    match (if r.fails .passwordRead then none
      else site.store.passwordCurrentFor c.accountId) with
    | none => (site, .unavailable)
    | some (_, stored) =>
      if !rt.passwordVerify password stored.encodedHash then
        ((site.recordOn r .passwordConfirmFailed c).1, .err 400 "that is not your password")
      else match site.recordOn r .passwordConfirmed c with
        | (site, false) => (site, .unavailable)
        | (site, true) => (site, { status := 200 })

/-! ## Passkeys -/

inductive PasskeyError
  | unknownCeremony
  | refused
  | unavailable
  deriving DecidableEq

def PasskeyError.message : PasskeyError → String
  | unknownCeremony => "That passkey request has expired. Start again."
  | refused => "That passkey was not accepted. Try again."
  | unavailable => "That did not work. Try again in a moment."

/-- How a failed ceremony is answered. -/
def PasskeyError.problem (e : PasskeyError) (status : Nat) (text : String) : Reply :=
  match e with
  | .unavailable => .unavailable
  | _ => .err status text

structure Asserted where
  accountId : RowId
  userVerified : Bool
  deriving DecidableEq

def ceremonyTtlSecs : Int := 300

/-- `Handles::start`: expired ceremonies are dropped. -/
def startCeremony (site : Site) (handle : String) (pending : Pending) (now : Int) : Site :=
  { site with
    ceremonies := (handle, pending, now + ceremonyTtlSecs) ::
      site.ceremonies.filter fun e => now < e.2.2 && e.1 ≠ handle }

/-- `Handles::take`: a handle works once. -/
def takeCeremony (site : Site) (handle : String) (now : Int) : Site × Option Pending :=
  ({ site with ceremonies := site.ceremonies.filter (·.1 ≠ handle) },
    ((site.ceremonies.find? (·.1 = handle)).filter (now < ·.2.2)).map (·.2.1))

def passkeyByCredentialId (site : Site) (credentialId : String) :
    Option (RowId × PasskeyCredential) :=
  site.passkeys.find? fun _ k => k.credentialId = credentialId

/-- `assert_with`: the ceremony named the account. -/
def assertWith (site : Site) (r : Request) (account : RowId) (challenge : String)
    (credential : PublicKeyCredential) : Except PasskeyError Asserted :=
  match rt.finishAuthentication challenge credential with
  | none => .error .refused
  | some userVerified =>
    if r.fails .passkeyRead then .error .unavailable
    else match site.passkeyByCredentialId credential.id with
      | none => .error .refused
      | some (_, row) =>
        if row.accountId ≠ account then .error .refused
        else if r.fails .passkeyRecordUse then .error .unavailable
        else .ok ⟨account, userVerified⟩

/-- `discover_with`: the account is the credential's owner as the store knows it. -/
def discoverWith (site : Site) (r : Request) (challenge : String)
    (credential : PublicKeyCredential) : Except PasskeyError Asserted :=
  if r.fails .passkeyRead then .error .unavailable
  else match site.passkeyByCredentialId credential.id with
    | none => .error .refused
    | some (_, row) =>
      if row.userUniqueId ≠ credential.userHandle then .error .refused
      else match rt.finishDiscoverable challenge credential row.credential with
        | none => .error .refused
        | some userVerified =>
          if r.fails .passkeyRecordUse then .error .unavailable
          else .ok ⟨row.accountId, userVerified⟩

/-- `passkey::finish_signin` and `passkey::finish_step_up`: the handle decides which ceremony it
was. -/
def finishAssertion (site : Site) (r : Request) (handle : String)
    (credential : PublicKeyCredential) : Site × Except PasskeyError Asserted :=
  match site.takeCeremony handle r.now with
  | (site, some (.assert account challenge)) =>
    (site, site.assertWith rt r account challenge credential)
  | (site, some (.discover challenge)) => (site, site.discoverWith rt r challenge credential)
  | (site, _) => (site, .error .unknownCeremony)

/-- `passkey_asserted`: possession, and the user verification. -/
def passkeyAsserted (site : Site) (r : Request) (c : SessionContext) (userVerified : Bool) :
    Site × Bool :=
  match site.recordOn r .passkey c with
  | (site, false) => (site, false)
  | (site, true) =>
    if userVerified then site.recordOn r .passkeyUserVerification c else (site, true)

def passkeySigninRefused : Reply := .err 401 "invalid email or password"

def passkeySigninBegin (site : Site) (r : Request) (email handle challenge : String) :
    Site × Reply :=
  let lookup := rt.normalize email
  if lookup = "" then
    (site.startCeremony handle (.discover challenge) r.now, { status := 200, text := handle })
  else
    let account := do
      if r.fails .addressRead then none
      else
        let (_, identity) ← site.store.emailIdentityFind lookup
        if r.fails .accountRead then none
        else
          let _ ← site.store.accountById identity.accountId
          return identity.accountId
    match account with
    | none => (site, passkeySigninRefused)
    | some account =>
      if r.fails .passkeyRead then (site, .unavailable)
      else if (site.passkeys.find? fun _ k => k.accountId = account).isNone then
        (site, passkeySigninRefused)
      else (site.startCeremony handle (.assert account challenge) r.now,
        { status := 200, text := handle })

def passkeySigninFinish (site : Site) (r : Request) (handle : String)
    (credential : PublicKeyCredential) (token : String) : Site × Reply :=
  match site.finishAssertion rt r handle credential with
  | (site, .error _) => ((site.record r .passkeyFailed none none).1, passkeySigninRefused)
  | (site, .ok asserted) =>
    if r.fails .addressRead || (site.store.emailIdentityForAccount asserted.accountId).isNone then
      (site, .err 503 "sign-in is temporarily unavailable")
    else match site.openSession rt r asserted.accountId token "" with
      | (site, none) => (site, .unavailable)
      | (site, some c) =>
        match site.passkeyAsserted r c asserted.userVerified with
        | (site, false) => (site.invalidate rt r token, .unavailable)
        | (site, true) =>
          if r.fails .recordLogin then (site.invalidate rt r token, .unavailable)
          else (site, { status := 200, cookie := some token })

def passkeyStepupBegin (site : Site) (r : Request) (handle challenge : String) : Site × Reply :=
  match site.stepUpExpected rt r with
  | some reply => (site, reply)
  | none =>
    (site.startCeremony handle (.discover challenge) r.now, { status := 200, text := handle })

def passkeyStepupFinish (site : Site) (r : Request) (c : SessionContext) (handle : String)
    (credential : PublicKeyCredential) : Site × Reply :=
  match site.stepUpExpected rt r with
  | some reply => (site, reply)
  | none =>
    match site.finishAssertion rt r handle credential with
    | (site, .error e) => ((site.recordOn r .passkeyFailed c).1, e.problem 400 e.message)
    | (site, .ok asserted) =>
      if asserted.accountId ≠ c.accountId then
        ((site.recordOn r .passkeyFailed c).1, .err 400 PasskeyError.refused.message)
      else
        let signingIn : Bool := (site.asked rt r (some c)).levelOf < .strong
        match site.passkeyAsserted r c asserted.userVerified with
        | (site, false) => (site, .unavailable)
        | (site, true) =>
          if signingIn && r.fails .recordLogin then (site, .unavailable)
          else (site, { status := 200 })

def passkeyRegisterBegin (site : Site) (r : Request) (c : SessionContext)
    (handle challenge : String) : Site × Reply :=
  if r.fails .accountRead || (site.store.accountById c.accountId).isNone then (site, .unavailable)
  else if r.fails .passkeyRead then (site, .unavailable)
  else (site.startCeremony handle (.register c.accountId challenge) r.now,
    { status := 200, text := handle })

/-- The credential is filed under the account its ceremony was started for. -/
def finishRegister (site : Site) (r : Request) (handle : String)
    (credential : PublicKeyCredential) : Site × Except PasskeyError PasskeyCredential :=
  match site.takeCeremony handle r.now with
  | (site, some (.register account challenge)) =>
    match rt.finishRegistration challenge credential with
    | none => (site, .error .refused)
    | some (credentialId, serialised) =>
      if r.fails .passkeyRead then (site, .error .unavailable)
      else if (site.passkeyByCredentialId credentialId).isSome then (site, .error .refused)
      else if r.fails .passkeyCreate then (site, .error .unavailable)
      else
        let row := { accountId := account, credentialId, credential := serialised
                     userUniqueId := rt.userHandle account }
        ({ site with passkeys := site.passkeys.insert row }, .ok row)
  | (site, _) => (site, .error .unknownCeremony)

def passkeyRegisterFinish (site : Site) (r : Request) (c : SessionContext) (handle : String)
    (credential : PublicKeyCredential) : Site × Reply :=
  match site.finishRegister rt r handle credential with
  | (site, .error e) => (site, e.problem 400 e.message)
  | (site, .ok row) =>
    if row.accountId ≠ c.accountId then (site, .err 400 PasskeyError.refused.message)
    else (site, { status := 200 })

/-! ## Serving a request -/

/-- A handler of a session, behind its origin and CSRF checks. -/
def guarded (site : Site) (r : Request) (session : Option SessionContext)
    (served : SessionContext → Site × Reply) : Site × Reply :=
  if !r.originOk || !r.csrfOk then (site, .err 403 "request refused")
  else match session with
    | none => (site, .err 401 "not signed in")
    | some c => served c

def handle (site : Site) (r : Request) (session : Option SessionContext) : Site × Reply :=
  match r.body with
  | .begin provider state nonce verifier => site.begin rt r provider state nonce verifier
  | .stepUp provider returnPath state nonce verifier =>
    match session with
    | none => (site, .err 401 "not signed in")
    | some c => site.stepUp rt r c provider returnPath state nonce verifier
  | .callback provider code state error token otp =>
    site.callback rt r provider code state error token otp
  | .loginVerify code => site.guarded r session fun c => site.loginVerify rt r c code
  | .loginResend otp => site.guarded r session fun c => site.loginResend rt r c otp
  | .loginTotp code => site.guarded r session fun c => site.loginTotp rt r c code
  | .confirmPassword password => site.guarded r session fun c => site.confirmPassword rt r c password
  | .passkeySigninBegin email handle challenge =>
    if !r.originOk then (site, .err 403 "request refused")
    else site.passkeySigninBegin rt r email handle challenge
  | .passkeySigninFinish handle credential token =>
    if !r.originOk then (site, .err 403 "request refused")
    else site.passkeySigninFinish rt r handle credential token
  | .passkeyStepupBegin handle challenge =>
    site.guarded r session fun _ => site.passkeyStepupBegin rt r handle challenge
  | .passkeyStepupFinish handle credential =>
    site.guarded r session fun c => site.passkeyStepupFinish rt r c handle credential
  | .passkeyRegisterBegin handle challenge =>
    site.guarded r session fun c => site.passkeyRegisterBegin r c handle challenge
  | .passkeyRegisterFinish handle credential =>
    site.guarded r session fun c => site.passkeyRegisterFinish rt r c handle credential

/-- `gate`, then the handler. -/
def serve (site : Site) (r : Request) : Site × Reply :=
  let session := site.session rt r
  let required := requiredLevel r.body
  if required = .none then site.handle rt r session
  else if session.isNone then (site, .err 401 "not signed in")
  else if (site.asked rt r session).levelOf < required then
    (site, .err 403 "second factor required")
  else site.handle rt r session

/-- Serve a request and give the browser the cookie of the reply. -/
def step (site : Site) (r : Request) : Option Site :=
  let (site', reply) := site.serve rt r
  some { site' with
    cookies := match reply.cookie with
      | some token => Function.update site'.cookies r.browser (some token)
      | none => site'.cookies }

end Site

end TunnelWeaver.Account
