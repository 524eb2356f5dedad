import TunnelWeaver.Account.Store

/-! Password sign-ins, password changes and password resets of `account/router.rs` as tasks that
interleave between their store operations. A request reads the credential and checks the password
in one step (the check reads nothing else); what it writes it writes in later steps. -/

namespace TunnelWeaver.Account

open Automaton

/-- `password::Passwords::verify` and the hash an unknown address is checked against. -/
structure Passwords where
  verify : (password encodedHash : String) → Bool
  dummyHash : String

inductive LoginPhase
  /-- The password was checked; the session is to be created. -/
  | verified
  /-- The row was inserted; `OpenedSession::open` still has to read it back. -/
  | created
  | opened
  | proven
  | done
  deriving DecidableEq

structure Login where
  account : RowId
  /-- The credential the password was checked against; none for the dummy hash. -/
  credential : Option RowId
  now : Int
  tokenHash : String
  session : Option RowId
  phase : LoginPhase
  deriving DecidableEq

/-- A change-password request that has verified the current password. -/
structure Change where
  account : RowId
  credential : RowId
  encodedHash : String
  now : Int
  outcome : Option (Except StoreError Unit)

structure Reset where
  token : RowId
  encodedHash : String
  now : Int
  outcome : Option (Except StoreError Unit)

structure World where
  store : Store := {}
  logins : Table Login := ∅
  changes : Table Change := ∅
  resets : Table Reset := ∅

inductive Action
  | issueToken (tokenDigest : String) (expiresAt : Int)
  | activate (req : Store.ActivationRequest)
  | signInExternally (req : Store.NewExternalIdentity)
  | deleteAccount (account : RowId)
  | logout (tokenHash : String) (now : Int)
  | login (lookupKey password tokenHash : String) (now : Int)
  | createSession (task : RowId) (ttl : Int)
  | readBack (task : RowId)
  | recordProof (task : RowId) (ok : Bool)
  | offerCode (task : RowId) (ok : Bool)
  | requestReset (account : RowId) (tokenDigest : String) (now ttl : Int)
  | reset (tokenDigest encodedHash : String) (now : Int)
  | applyReset (task : RowId)
  | change (tokenHash password encodedHash : String) (now : Int)
  | applyChange (task : RowId)
  deriving DecidableEq

namespace World

variable (pw : Passwords) (normalize : String → String)

/-- The account a session cookie resolves to. -/
def sessionAccount (w : World) (tokenHash : String) (now : Int) : Option RowId := do
  let (_, b) ← w.store.sessionLive tokenHash now
  let _ ← w.store.accountById b.accountId
  return b.accountId

def loginFailed (w : World) (account : Option RowId) (now : Int) : World :=
  { w with
    store := (w.store.authEventInsert
      { accountId := account, sessionId := none, kind := .loginFailed, occurredAt := now }).1 }

/-- `login` up to the password check. -/
def login (w : World) (lookupKey password tokenHash : String) (now : Int) : World :=
  let account := do
    let (_, identity) ← w.store.emailIdentityFind lookupKey
    let _ ← w.store.accountById identity.accountId
    return identity.accountId
  match account with
  | none => w.loginFailed none now
  | some account =>
    let credential := w.store.passwordCurrentFor account
    let hash := (credential.map (·.2.encodedHash)).getD pw.dummyHash
    if !pw.verify password hash then w.loginFailed (some account) now
    else match w.store.emailIdentityForAccount account with
      | none => w
      | some _ =>
        { w with
          logins := w.logins.insert
            { account, credential := credential.map (·.1), now, tokenHash, session := none
              phase := .verified } }

/-- `Sessions::create`. -/
def createSession (w : World) (task : RowId) (l : Login) (ttl : Int) : World :=
  match w.store.sessionCreate l.account l.tokenHash "" l.now (l.now + ttl) with
  | (_, .error _) => { w with logins := w.logins.set task { l with phase := .done } }
  | (store, .ok session) =>
    { w with
      store
      logins := w.logins.set task { l with session := some session, phase := .created } }

/-- `OpenedSession::close`. -/
def closeLogin (w : World) (task : RowId) (l : Login) : World :=
  { w with
    store := w.store.sessionInvalidate l.tokenHash l.now
    logins := w.logins.set task { l with phase := .done } }

/-- The read that ends `OpenedSession::open`. -/
def readBack (w : World) (task : RowId) (l : Login) : World :=
  match w.store.sessionLive l.tokenHash l.now with
  | none => w.closeLogin task l
  | some _ => { w with logins := w.logins.set task { l with phase := .opened } }

/-- `password_checked`; `ok` is whether the store takes the row. -/
def recordProof (w : World) (task : RowId) (l : Login) (ok : Bool) : World :=
  match ok, w.store.authEventInsert
      { accountId := some l.account, sessionId := l.session, kind := .password
        occurredAt := l.now } with
  | true, (store, true) =>
    { w with store, logins := w.logins.set task { l with phase := .proven } }
  | _, _ => w.closeLogin task l

/-- `offer_emailed_code`; `ok` is whether the code was stored and sent. -/
def offerCode (w : World) (task : RowId) (l : Login) (ok : Bool) : World :=
  if ok then { w with logins := w.logins.set task { l with phase := .done } }
  else w.closeLogin task l

/-- `reset_complete` up to the hash of the new password. -/
def reset (w : World) (tokenDigest encodedHash : String) (now : Int) : World :=
  match w.store.passwordResetTokenByDigest tokenDigest with
  | none => w
  | some (token, t) =>
    if !t.usable now then w
    else { w with resets := w.resets.insert { token, encodedHash, now, outcome := none } }

def applyReset (w : World) (task : RowId) (r : Reset) : World :=
  let result := w.store.accountResetPassword r.token r.encodedHash r.now
  { w with
    store := result.1
    resets := w.resets.set task { r with outcome := some result.2 } }

/-- `change_password` up to the hash of the new password. -/
def change (w : World) (tokenHash password encodedHash : String) (now : Int) : World :=
  match w.sessionAccount tokenHash now with
  | none => w
  | some account =>
    match w.store.passwordCurrentFor account with
    | none => w
    | some (credential, c) =>
      if !pw.verify password c.encodedHash then w
      else { w with
        changes := w.changes.insert { account, credential, encodedHash, now, outcome := none } }

def applyChange (w : World) (task : RowId) (c : Change) : World :=
  let result := w.store.accountChangePassword c.account c.encodedHash c.now
  { w with
    store := result.1
    changes := w.changes.set task { c with outcome := some result.2 } }

/-- Run `f` on a login in a given phase. -/
def atLogin (w : World) (task : RowId) (phase : LoginPhase) (f : Login → World) : Option World :=
  (w.logins.get? task).bind fun l => if l.phase = phase then some (f l) else none

def step (w : World) : Action → Option World
  | .issueToken tokenDigest expiresAt => some { w with
      store := { w.store with
        verificationTokens := w.store.verificationTokens.insert
          { tokenDigest, expiresAt, consumedAt := none, revokedAt := none } } }
  | .activate req => some { w with store := (w.store.accountActivate normalize req).1 }
  | .signInExternally req => some { w with
      store := (w.store.externalIdentityResolveOrCreate normalize req).1 }
  | .deleteAccount account => some { w with store := w.store.deleteAccount account }
  | .logout tokenHash now => some { w with store := w.store.sessionInvalidate tokenHash now }
  | .login lookupKey password tokenHash now => some (w.login pw lookupKey password tokenHash now)
  | .createSession task ttl => w.atLogin task .verified fun l => w.createSession task l ttl
  | .readBack task => w.atLogin task .created (w.readBack task)
  | .recordProof task ok => w.atLogin task .opened fun l => w.recordProof task l ok
  | .offerCode task ok => w.atLogin task .proven fun l => w.offerCode task l ok
  | .requestReset account tokenDigest now ttl => some { w with
      store := w.store.passwordResetTokenIssue account tokenDigest now (now + ttl) }
  | .reset tokenDigest encodedHash now => some (w.reset tokenDigest encodedHash now)
  | .applyReset task =>
    (w.resets.get? task).bind fun r =>
      if r.outcome.isNone then some (w.applyReset task r) else none
  | .change tokenHash password encodedHash now =>
    some (w.change pw tokenHash password encodedHash now)
  | .applyChange task =>
    (w.changes.get? task).bind fun c =>
      if c.outcome.isNone then some (w.applyChange task c) else none

end World

end TunnelWeaver.Account
