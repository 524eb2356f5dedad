import TunnelWeaver.Account.Climb
import TunnelWeaver.Account.Newest
import TunnelWeaver.Account.Watch

/-! `strong_session_accounts` (`store/account.rs`), what the inactivity sweep takes for signed in
with a second factor, against the level the gate derives. The one asks for a row that was ever
recorded, the other for a proof that stands. -/

namespace TunnelWeaver.Account

namespace EventKind

/-- `PROOF_EMAIL_OTP`, `PROOF_PASSKEY`, `PROOF_TOTP` and `PROOF_IDENTITY_PROVIDER_MFA`. -/
def secondFactors : List EventKind := [emailOtp, passkey, totp, identityProviderMfa]

theorem asStr_of_parse {kind : String} {event : EventKind} (h : parse kind = some event) :
    event.asStr = kind := by
  simpa using List.find?_some h

end EventKind

/-- `account.session_ttl_secs` and `account.confirm_window_secs`. -/
structure Lifetimes where
  sessionTtlSecs : Int
  confirmWindowSecs : Int

namespace Store

/-- `strong_session_accounts`. -/
def strongSessionAccounts (s : Store) (now : Int) : List RowId :=
  let live := (s.sessions.rows.filter fun e => e.2.live now).map fun e => (e.2.accountId, e.1)
  if live.isEmpty then []
  else
    let sessionIds := live.map (·.2)
    let proven := (s.authEventRows.filter fun row => row.sessionId.any (· ∈ sessionIds) &&
      row.kind ∈ EventKind.secondFactors.map EventKind.asStr).filterMap (·.sessionId)
    (live.filter fun e => e.2 ∈ proven).map (·.1)

/-- What the gate sees of a session. -/
def situationOf (latest : RowId → List (String × Int)) (l : Lifetimes) (now : Int) (id : RowId)
    (b : BrowserSession) : Situation where
  accountId := some b.accountId
  proofs := loadLatest (latest id)
  now
  sessionTtlSecs := l.sessionTtlSecs
  confirmWindowSecs := l.confirmWindowSecs

/-- A live session of an account. -/
def LiveFor (s : Store) (now : Int) (account id : RowId) (b : BrowserSession) : Prop :=
  s.sessions.get? id = some b ∧ b.live now ∧ b.accountId = account

/-- A second factor was recorded on a session. -/
def Recorded (s : Store) (id : RowId) : Prop :=
  ∃ kind ∈ EventKind.secondFactors, (newestAt s.authEventRows id (· = kind.asStr)).isSome

/-- The newest row of a kind comes after the end of the trail. -/
def Given (s : Store) (latest : RowId → List (String × Int)) (id : RowId) (kind : EventKind)
    (at_ : Int) : Prop :=
  newestAt s.authEventRows id (· = kind.asStr) = some at_ ∧
    ∀ e, lastAt (latest id) ends = some e → e < at_

/-- And it is younger than `age`. -/
def Stands (s : Store) (latest : RowId → List (String × Int)) (now : Int) (id : RowId)
    (kind : EventKind) (age : Int) : Prop :=
  ∃ at_, s.Given latest id kind at_ ∧ now < at_ + age

variable {s : Store} {latest : RowId → List (String × Int)} {l : Lifetimes} {now at_ : Int}
  {id account : RowId} {b : BrowserSession} {proof : ProofKind} {kind : EventKind}

/-! ## The query -/

theorem recorded_iff : s.Recorded id ↔ ∃ row ∈ s.authEventRows, row.sessionId = some id ∧
    row.kind ∈ EventKind.secondFactors.map EventKind.asStr := by
  constructor
  · rintro ⟨kind, hkind, hsome⟩
    obtain ⟨a, ha⟩ := Option.isSome_iff_exists.mp hsome
    obtain ⟨row, hrow, hown, hrole, -⟩ := (newestAt_eq_some.mp ha).1
    refine ⟨row, hrow, hown, ?_⟩
    rw [of_decide_eq_true hrole]
    exact List.mem_map_of_mem hkind
  · rintro ⟨row, hrow, hown, hmem⟩
    obtain ⟨kind, hkind, heq⟩ := List.mem_map.mp hmem
    refine ⟨kind, hkind, ?_⟩
    rw [Option.isSome_iff_ne_none, newestAt, Ne, List.max?_eq_none_iff, List.map_eq_nil_iff,
      List.filter_eq_nil_iff]
    exact fun h => h row hrow (by simp [hown, heq])

/-- The query is met by an account with a live session on which a second factor was recorded. -/
theorem mem_strongSessionAccounts : account ∈ s.strongSessionAccounts now ↔
    ∃ id b, s.LiveFor now account id b ∧ s.Recorded id := by
  generalize hlive : (s.sessions.rows.filter fun e => e.2.live now).map
    (fun e => (e.2.accountId, e.1)) = live
  have hmem {account i : RowId} : (account, i) ∈ live ↔ ∃ b, s.LiveFor now account i b := by
    rw [← hlive]
    simp only [List.mem_map, List.mem_filter, Prod.mk.injEq, LiveFor, Table.get?_eq_some]
    constructor
    · rintro ⟨⟨j, b⟩, ⟨hb, hl⟩, ha, rfl⟩
      exact ⟨b, hb, hl, ha⟩
    · rintro ⟨b, hb, hl, ha⟩
      exact ⟨(i, b), ⟨hb, hl⟩, ha, rfl⟩
  have hproven {i : RowId} (hi : i ∈ live.map (·.2)) :
      i ∈ (s.authEventRows.filter fun row => row.sessionId.any (· ∈ live.map (·.2)) &&
        row.kind ∈ EventKind.secondFactors.map EventKind.asStr).filterMap (·.sessionId) ↔
      s.Recorded i := by
    rw [recorded_iff, List.mem_filterMap]
    simp only [List.mem_filter, Bool.and_eq_true, decide_eq_true_eq]
    constructor
    · rintro ⟨row, ⟨hrow, -, hkind⟩, hown⟩
      exact ⟨row, hrow, hown, hkind⟩
    · rintro ⟨row, hrow, hown, hkind⟩
      exact ⟨row, ⟨hrow, by rw [hown]; exact decide_eq_true hi, hkind⟩, hown⟩
  have hof {a i : RowId} (h : (a, i) ∈ live) : i ∈ live.map (·.2) := List.mem_map_of_mem h
  simp only [strongSessionAccounts, hlive]
  split
  case isTrue hempty =>
    rw [List.isEmpty_iff] at hempty
    refine iff_of_false List.not_mem_nil ?_
    rintro ⟨i, b, hb, -⟩
    have hin := hmem.mpr ⟨b, hb⟩
    rw [hempty] at hin
    cases hin
  case isFalse =>
    rw [List.mem_map]
    constructor
    · rintro ⟨⟨a, i⟩, hkept, rfl⟩
      obtain ⟨hin, hrec⟩ := List.mem_filter.mp hkept
      obtain ⟨b, hb⟩ := hmem.mp hin
      exact ⟨i, b, hb, (hproven (hof hin)).mp (of_decide_eq_true hrec)⟩
    · rintro ⟨i, b, hb, hrec⟩
      have hin := hmem.mpr ⟨b, hb⟩
      have hrec' := decide_eq_true ((hproven (hof hin)).mpr hrec)
      exact ⟨(account, i), List.mem_filter.mpr ⟨hin, hrec'⟩, rfl⟩

/-! ## The gate -/

section
variable (h : ∀ id, (latest id).Perm (AuthEventRow.latestByKind s.authEventRows id))
include h

/-- What is listed last for a kind is the one thing listed for it. -/
theorem lastAt_kind (kind : String) :
    lastAt (latest id) (· = kind) = newestAt s.authEventRows id (· = kind) := by
  cases hlast : lastAt (latest id) (· = kind) with
  | none =>
    rw [lastAt, Option.map_eq_none_iff, List.getLast?_eq_none_iff] at hlast
    rw [newestAt_of_perm (h id), hlast]
    rfl
  | some a =>
    obtain ⟨row, hrow, rfl⟩ := Option.map_eq_some_iff.mp hlast
    obtain ⟨hin, hkind⟩ := List.mem_filter.mp (List.mem_of_getLast? hrow)
    have hgroup := mem_latestByKind.mp ((h id).mem_iff.mp hin)
    rw [← hgroup, of_decide_eq_true hkind]

/-- The proof that one kind feeds, as it is loaded. -/
theorem loadLatest_eq_some (hfeeds : ∀ k, feeds proof k = decide (k = kind.asStr)) :
    loadLatest (latest id) proof = some at_ ↔ s.Given latest id kind at_ := by
  have hrole : feeds proof = fun k => decide (k = kind.asStr) := funext hfeeds
  rw [loadLatest_eq, Option.filter_eq_some_iff, hrole, lastAt_kind h, Given]
  refine and_congr_right fun _ => ?_
  cases lastAt (latest id) ends <;> simp

theorem hasValid_situationOf (hfeeds : ∀ k, feeds proof k = decide (k = kind.asStr)) :
    (situationOf latest l now id b).hasValid proof ↔
      s.Stands latest now id kind ((situationOf latest l now id b).maxAge proof) := by
  rw [Situation.hasValid_iff, Stands]
  exact exists_congr fun a => and_congr_left fun _ => loadLatest_eq_some h hfeeds

end

/-- Whether one kind alone feeds a proof is read off the table. -/
theorem feeds_eq (hproof : ∀ event ∈ EventKind.all, event.proof = some proof ↔ event = kind)
    (k : String) : feeds proof k = decide (k = kind.asStr) := by
  rw [feeds]
  refine decide_eq_decide.mpr ?_
  rw [Option.bind_eq_some_iff]
  constructor
  · rintro ⟨event, hparse, hevent⟩
    rw [← EventKind.asStr_of_parse hparse, (hproof event event.mem_all).mp hevent]
  · rintro rfl
    exact ⟨kind, EventKind.parse_asStr kind, (hproof kind kind.mem_all).mpr rfl⟩

/-- With the kinds listed in their own order it is the situation the requests are gated by. -/
theorem situationOf_listed (rt : Runtime) :
    situationOf (fun id => (s.authEventLatestByKind id).map fun e => (e.1.asStr, e.2))
      ⟨rt.sessionTtlSecs, rt.confirmWindowSecs⟩ now id b =
    Site.situation rt s (some ⟨id, b.accountId⟩) now := by
  rw [situationOf, loadLatest_asStr]
  rfl

/-! ## Where the two part -/

variable (s : Store) (latest : RowId → List (String × Int)) (l : Lifetimes) (now : Int)

/-- A second factor stands: a code or a passkey, or the provider's word for one on a session that
it opened. -/
def SecondFactorStands (id : RowId) : Prop :=
  s.Stands latest now id .totp l.sessionTtlSecs ∨ s.Stands latest now id .emailOtp l.sessionTtlSecs ∨
  s.Stands latest now id .passkey l.sessionTtlSecs ∨
  ((∃ at_, s.Given latest id .identityProvider at_) ∧
    s.Stands latest now id .identityProviderMfa l.sessionTtlSecs)

/-- The person was just re-authenticated by the provider that opened the session. -/
def PresenceStands (id : RowId) : Prop :=
  (∃ at_, s.Given latest id .identityProvider at_) ∧
    s.Stands latest now id .identityProviderPresence l.confirmWindowSecs

/-- The gate derives at least `strong` for a live session of the account. -/
def SignedInStrongly (account : RowId) : Prop :=
  ∃ id b, s.LiveFor now account id b ∧ .strong ≤ (situationOf latest l now id b).levelOf

/-- The sweep and the gate agree: a live session with a second factor on its trail that no longer
stands (the trail has ended, or the factor has aged), and one that is strong by the provider's
presence alone, are each of an account that another live session speaks for. -/
structure Covered : Prop where
  lapsed : ∀ account id b, s.LiveFor now account id b → s.Recorded id →
    ¬s.SecondFactorStands latest l now id → ¬s.PresenceStands latest l now id →
    ∃ id' b', s.LiveFor now account id' b' ∧
      (s.SecondFactorStands latest l now id' ∨ s.PresenceStands latest l now id')
  presenceOnly : ∀ account id b, s.LiveFor now account id b → ¬s.Recorded id →
    s.PresenceStands latest l now id → ∃ id' b', s.LiveFor now account id' b' ∧ s.Recorded id'

variable {s latest l now}

theorem SecondFactorStands.recorded (h : s.SecondFactorStands latest l now id) : s.Recorded id := by
  have hof {kind : EventKind} {age : Int} (hkind : kind ∈ EventKind.secondFactors)
      (h : s.Stands latest now id kind age) : s.Recorded id := by
    obtain ⟨a, ⟨hnewest, -⟩, -⟩ := h
    exact ⟨kind, hkind, by rw [hnewest]; rfl⟩
  rcases h with h | h | h | ⟨-, h⟩
  · exact hof (by decide) h
  · exact hof (by decide) h
  · exact hof (by decide) h
  · exact hof (by decide) h

theorem strong_le_situationOf
    (h : ∀ id, (latest id).Perm (AuthEventRow.latestByKind s.authEventRows id)) :
    .strong ≤ (situationOf latest l now id b).levelOf ↔
      s.SecondFactorStands latest l now id ∨ s.PresenceStands latest l now id := by
  have hused : (situationOf latest l now id b).wasUsed .identityProvider ↔
      ∃ a, s.Given latest id .identityProvider a := by
    rw [Situation.wasUsed, Option.isSome_iff_exists]
    exact exists_congr fun a => loadLatest_eq_some h (feeds_eq (by decide))
  have hvalid (kind : EventKind) {proof : ProofKind}
      (hproof : ∀ event ∈ EventKind.all, event.proof = some proof ↔ event = kind) :
      (situationOf latest l now id b).hasValid proof ↔
        s.Stands latest now id kind ((situationOf latest l now id b).maxAge proof) :=
    hasValid_situationOf h (feeds_eq hproof)
  rw [Situation.strong_le_levelOf rfl, hused, hvalid .totp (by decide),
    hvalid .emailOtp (by decide), hvalid .passkey (by decide),
    hvalid .identityProviderPresence (by decide), hvalid .identityProviderMfa (by decide),
    SecondFactorStands, PresenceStands]
  change _ ∨ _ ∨ _ ∨ (_ ∧ (s.Stands latest now id .identityProviderPresence l.confirmWindowSecs ∨
    s.Stands latest now id .identityProviderMfa l.sessionTtlSecs)) ↔ _
  tauto

/-- The sweep takes for signed in with a second factor just the accounts the gate does, exactly when
every live session on which the two part is covered by another of its account. -/
theorem strong_session_accounts_iff (s : Store) (latest : RowId → List (String × Int))
    (l : Lifetimes) (now : Int)
    (h : ∀ id, (latest id).Perm (AuthEventRow.latestByKind s.authEventRows id)) :
    (∀ account, account ∈ s.strongSessionAccounts now ↔ s.SignedInStrongly latest l now account) ↔
      s.Covered latest l now := by
  simp only [mem_strongSessionAccounts, SignedInStrongly, strong_le_situationOf h]
  constructor
  · intro heq
    refine ⟨?_, ?_⟩
    · intro account id b hlive hrec _ _
      exact (heq account).mp ⟨id, b, hlive, hrec⟩
    · intro account id b hlive _ hpresence
      exact (heq account).mpr ⟨id, b, hlive, .inr hpresence⟩
  · intro hcovered account
    constructor
    · rintro ⟨id, b, hlive, hrec⟩
      by_cases hstands : s.SecondFactorStands latest l now id ∨ s.PresenceStands latest l now id
      · exact ⟨id, b, hlive, hstands⟩
      · rw [not_or] at hstands
        exact hcovered.lapsed account id b hlive hrec hstands.1 hstands.2
    · rintro ⟨id, b, hlive, hfactor | hpresence⟩
      · exact ⟨id, b, hlive, hfactor.recorded⟩
      · by_cases hrec : s.Recorded id
        · exact ⟨id, b, hlive, hrec⟩
        · exact hcovered.presenceOnly account id b hlive hrec hpresence

namespace Sample

def opened : BrowserSession where
  accountId := 1
  tokenHash := "1f"
  provider := "entra"
  createdAt := 1000
  expiresAt := 44200
  invalidatedAt := none

/-- A session that a provider opened with one factor, re-authenticated there two minutes later. -/
def present : Store where
  sessions := (∅ : Table BrowserSession).insert opened
  events := ((∅ : Table AuthEvent).insert ⟨some 1, some 1, .identityProvider, 1000⟩).insert
    ⟨some 1, some 1, .identityProviderPresence, 1120⟩

def listed (id : RowId) : List (String × Int) :=
  AuthEventRow.latestByKind present.authEventRows id

def lifetimes : Lifetimes := ⟨43200, 300⟩

end Sample

theorem strong_session_accounts_present :
    (∀ account, account ∈ Sample.present.strongSessionAccounts 1500 ↔
      Sample.present.SignedInStrongly Sample.listed Sample.lifetimes 1500 account) ↔
    Sample.present.Covered Sample.listed Sample.lifetimes 1500 :=
  strong_session_accounts_iff Sample.present Sample.listed Sample.lifetimes 1500 fun _ => .rfl

/-- While the provider's presence lasts the session is `certain`, and the sweep does not see it. -/
theorem strong_session_accounts_unlike_gate : ¬∀ (s : Store)
    (latest : RowId → List (String × Int)) (l : Lifetimes) (now : Int),
    (∀ id, (latest id).Perm (AuthEventRow.latestByKind s.authEventRows id)) →
    ∀ account, account ∈ s.strongSessionAccounts now ↔
      s.SignedInStrongly latest l now account := by
  intro h
  have hgate : Sample.present.SignedInStrongly Sample.listed Sample.lifetimes 1200 1 :=
    ⟨1, Sample.opened, ⟨rfl, rfl, rfl⟩, by decide +kernel⟩
  exact absurd ((h Sample.present Sample.listed Sample.lifetimes 1200 (fun _ => .rfl) 1).mpr hgate)
    (by decide +kernel)

end Store

end TunnelWeaver.Account
