import TunnelWeaver.Account.Store

/-! The level of a session, derived from the trail of its proofs (`account/auth`). A proof is the
latest `auth_event` of its kind on the session; the level is the best that one of the four paths
grants. -/

namespace TunnelWeaver.Account

/-- How strongly a request has been authenticated, weakest first. -/
inductive AuthLevel
  | none
  | basic
  | strong
  | certain
  deriving DecidableEq

namespace AuthLevel

def rank : AuthLevel → Nat
  | none => 0
  | basic => 1
  | strong => 2
  | certain => 3

instance : LT AuthLevel := ⟨fun a b => a.rank < b.rank⟩

instance (a b : AuthLevel) : Decidable (a < b) := inferInstanceAs (Decidable (a.rank < b.rank))

instance : Max AuthLevel := ⟨fun a b => if a < b then b else a⟩

theorem max_lt {a b c : AuthLevel} (ha : a < c) (hb : b < c) : max a b < c := by
  change (if a < b then b else a) < c
  split
  · exact hb
  · exact ha

end AuthLevel

inductive ProofKind
  | password
  | emailOtp
  | totp
  | passkey
  | passkeyUserVerification
  | identityProvider
  | identityProviderMfa
  | identityProviderPresence
  deriving DecidableEq

/-- How long an occurrence stays alive. -/
def ProofKind.maxAgeSecs (sessionTtlSecs confirmWindowSecs : Int) : ProofKind → Int
  | .password | .passkeyUserVerification | .identityProviderPresence => confirmWindowSecs
  | .emailOtp | .totp | .passkey | .identityProvider | .identityProviderMfa => sessionTtlSecs

/-- Every kind, in the order of the strings stored in `auth_event.kind`: the order the grouped
query returns them in. -/
def EventKind.all : List EventKind :=
  [.emailOtp, .emailOtpFailed, .emailOtpIssued, .identityProvider, .identityProviderGrantInvalid,
    .identityProviderMfa, .identityProviderPresence, .loginFailed, .logout, .passkey,
    .passkeyFailed, .passkeyUserVerification, .password, .passwordConfirmFailed,
    .passwordConfirmed, .ssoFailed, .totp, .totpFailed]

/-- The proof an event records. -/
def EventKind.proof : EventKind → Option ProofKind
  | .password | .passwordConfirmed => some .password
  | .emailOtp => some .emailOtp
  | .totp => some .totp
  | .passkey => some .passkey
  | .passkeyUserVerification => some .passkeyUserVerification
  | .identityProvider => some .identityProvider
  | .identityProviderMfa => some .identityProviderMfa
  | .identityProviderPresence => some .identityProviderPresence
  | .passwordConfirmFailed | .emailOtpIssued | .emailOtpFailed | .totpFailed | .passkeyFailed
  | .ssoFailed | .identityProviderGrantInvalid | .loginFailed | .logout => none

/-- A logout or a dead upstream grant ends the trail. -/
def EventKind.endsTrail (kind : EventKind) : Bool :=
  kind = .logout || kind = .identityProviderGrantInvalid

/-! ## The trail -/

namespace Store

/-- The latest occurrence of each kind on a session. -/
def authEventLatestByKind (s : Store) (sessionId : RowId) : List (EventKind × Int) :=
  EventKind.all.filterMap fun kind =>
    let rows := (s.events.rows.map (·.2)).filter fun e =>
      e.sessionId = some sessionId && e.kind = kind
    (rows.map (·.occurredAt)).max?.map fun at_ => (kind, at_)

/-- `auth_event_count_since`. -/
def authEventCountSince (s : Store) (sessionId : RowId) (kind : EventKind) (since : Int) : Nat :=
  s.events.count fun _ e => e.sessionId = some sessionId && e.kind = kind && since ≤ e.occurredAt

end Store

/-- The proofs of a trail: of several events that feed one proof the last listed counts, and a proof
that is not after the end of the trail does not. -/
def loadProofs (latest : List (EventKind × Int)) (proof : ProofKind) : Option Int :=
  let loggedOutAt := ((latest.filter (·.1.endsTrail)).getLast?).map (·.2)
  let at? := ((latest.filter fun e => !e.1.endsTrail && e.1.proof = some proof).getLast?).map (·.2)
  at?.filter fun at_ => loggedOutAt.all (· < at_)

/-- What a path gets to look at. -/
structure Situation where
  accountId : Option RowId
  proofs : ProofKind → Option Int
  now : Int
  sessionTtlSecs : Int
  confirmWindowSecs : Int

namespace Situation

def maxAge (s : Situation) (kind : ProofKind) : Int :=
  kind.maxAgeSecs s.sessionTtlSecs s.confirmWindowSecs

def hasValid (s : Situation) (kind : ProofKind) : Bool :=
  match s.proofs kind with
  | some at_ => s.now - at_ < s.maxAge kind
  | none => false

def wasUsed (s : Situation) (kind : ProofKind) : Bool := (s.proofs kind).isSome

/-! ## Paths -/

/-- The password, then a code: `PasswordEmailOtpPath` and `AuthenticatorPath`. -/
def codePath (code : ProofKind) (s : Situation) : AuthLevel :=
  if s.accountId.isNone then .none
  else if !s.wasUsed .password && !s.wasUsed code then .none
  else if !s.hasValid code then .basic
  else if s.hasValid .password then .certain
  else .strong

def passwordEmailOtpPath : Situation → AuthLevel := codePath .emailOtp

def authenticatorPath : Situation → AuthLevel := codePath .totp

def passkeyPath (s : Situation) : AuthLevel :=
  if s.accountId.isNone || !s.hasValid .passkey then .none
  else if s.hasValid .password || s.hasValid .passkeyUserVerification then .certain
  else .strong

def identityProviderPath (s : Situation) : AuthLevel :=
  if s.accountId.isNone || !s.wasUsed .identityProvider then .none
  else if s.hasValid .identityProviderPresence then .certain
  else if s.hasValid .identityProviderMfa then .strong
  else .basic

/-- The best level any path grants. -/
def levelOf (s : Situation) : AuthLevel :=
  max (max (max s.authenticatorPath s.passwordEmailOtpPath) s.passkeyPath) s.identityProviderPath

/-- A session whose only proof is the provider's first factor is not strong. -/
theorem levelOf_lt_strong {s : Situation}
    (h : ∀ kind, kind ≠ .identityProvider → s.proofs kind = none) : s.levelOf < .strong := by
  have hvalid (kind : ProofKind) (hk : kind ≠ .identityProvider) : s.hasValid kind = false := by
    rw [hasValid, h kind hk]
  have hcode {kind : ProofKind} (hk : kind ≠ .identityProvider) : s.codePath kind < .strong := by
    simp only [codePath, hvalid kind hk, Bool.not_false, if_true]
    split
    · decide
    · split <;> decide
  refine AuthLevel.max_lt (AuthLevel.max_lt (AuthLevel.max_lt ?_ ?_) ?_) ?_
  · exact hcode (by decide)
  · exact hcode (by decide)
  · simp only [passkeyPath, hvalid .passkey (by decide), Bool.not_false, Bool.or_true,
      if_true]
    decide
  · unfold identityProviderPath
    rw [hvalid .identityProviderPresence (by decide),
      hvalid .identityProviderMfa (by decide)]
    split <;> decide

/-! ## The level the console believes -/

/-- How long before a level falls the console is told it has. -/
def levelLeadSecs : Int := 5

/-- Every kind, in the order of the map's keys. -/
def kinds : List ProofKind :=
  [.password, .emailOtp, .totp, .passkey, .passkeyUserVerification, .identityProvider,
    .identityProviderMfa, .identityProviderPresence]

/-- When proofs expire, in order, after `now` and before the session ends. -/
def expiries (s : Situation) (sessionEndsAt : Int) : List Int :=
  let instants := kinds.filterMap fun kind => (s.proofs kind).map (· + s.maxAge kind)
  (instants.filter fun i => s.now < i && i < sessionEndsAt).mergeSort (· ≤ ·)

/-- The next instant the level falls, and what it falls to. -/
def nextDrop (s : Situation) (sessionEndsAt : Int) : Option (Int × AuthLevel) :=
  let current := s.levelOf
  if current = .none then none
  else
    let falls := (s.expiries sessionEndsAt).filterMap fun instant =>
      let level := levelOf { s with now := instant }
      if level < current then some (instant, level) else none
    some (falls.head?.getD (sessionEndsAt, .none))

def believedLevel (s : Situation) (sessionEndsAt : Int) : AuthLevel :=
  match s.nextDrop sessionEndsAt with
  | some (at_, level) => if at_ - s.now ≤ levelLeadSecs then level else s.levelOf
  | none => s.levelOf

/-- Whether a step-up is expected: the console does not hold `certain`. -/
def stepUpExpected (s : Situation) (sessionEndsAt : Int) : Bool :=
  s.believedLevel sessionEndsAt < .certain

end Situation

end TunnelWeaver.Account
