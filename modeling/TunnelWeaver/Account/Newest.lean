import TunnelWeaver.Account.Trail

/-! `load_proofs` of the manager as it runs: over the rows of the grouped query, one a kind, in
whatever order the query returns them. What it is to find is the newest proof of each kind, if it
was given after the trail last ended. -/

namespace TunnelWeaver.Account

namespace EventKind

/-- The string stored in `auth_event.kind`. -/
def asStr : EventKind → String
  | password => "password"
  | passwordConfirmed => "password_confirmed"
  | passwordConfirmFailed => "password_confirm_failed"
  | emailOtpIssued => "email_otp_issued"
  | emailOtp => "email_otp"
  | emailOtpFailed => "email_otp_failed"
  | totp => "totp"
  | totpFailed => "totp_failed"
  | passkey => "passkey"
  | passkeyUserVerification => "passkey_user_verification"
  | passkeyFailed => "passkey_failed"
  | identityProvider => "identity_provider"
  | identityProviderMfa => "identity_provider_mfa"
  | identityProviderPresence => "identity_provider_presence"
  | ssoFailed => "sso_failed"
  | identityProviderGrantInvalid => "identity_provider_grant_invalid"
  | loginFailed => "login_failed"
  | logout => "logout"

/-- Parse a stored kind. -/
def parse (kind : String) : Option EventKind := all.find? fun k => k.asStr = kind

theorem parse_asStr (kind : EventKind) : parse kind.asStr = some kind := by
  cases kind <;> decide

theorem asStr_injective {a b : EventKind} (h : a.asStr = b.asStr) : a = b := by
  have hparse := congrArg parse h
  rw [parse_asStr, parse_asStr] at hparse
  exact Option.some.inj hparse

theorem mem_all (kind : EventKind) : kind ∈ all := by cases kind <;> decide

theorem nodup_all : all.Nodup := by decide

end EventKind

/-- The columns of an `auth_event` row that the level is read off. -/
structure AuthEventRow where
  sessionId : Option RowId
  kind : String
  occurredAt : Int
  deriving DecidableEq

/-- `auth_event_latest_by_kind`: the rows of a session grouped by kind, with the newest instant of
each. The order of the groups is not the query's. -/
def AuthEventRow.latestByKind (rows : List AuthEventRow) (sessionId : RowId) :
    List (String × Int) :=
  let own := rows.filter fun row => row.sessionId = some sessionId
  (own.map (·.kind)).dedup.filterMap fun kind =>
    ((own.filter fun row => row.kind = kind).map (·.occurredAt)).max?.map (kind, ·)

/-- The locals of `load_proofs`. -/
structure Loading where
  proofs : ProofKind → Option Int := fun _ => none
  loggedOutAt : Option Int := none

/-- One row of the loop. -/
def Loading.row (l : Loading) (row : String × Int) : Loading :=
  match EventKind.parse row.1 with
  | some .logout | some .identityProviderGrantInvalid => { l with loggedOutAt := some row.2 }
  | some event => match event.proof with
    | some proof => { l with proofs := Function.update l.proofs proof (some row.2) }
    | none => l
  | none => l

/-- `load_proofs`, of what the query returned. -/
def loadLatest (latest : List (String × Int)) (proof : ProofKind) : Option Int :=
  let loaded := latest.foldl Loading.row {}
  match loaded.loggedOutAt with
  | some logout => (loaded.proofs proof).filter (logout < ·)
  | none => loaded.proofs proof

/-! ## Roles of a kind -/

/-- A stored kind that feeds a proof. -/
def feeds (proof : ProofKind) (kind : String) : Bool :=
  (EventKind.parse kind).bind EventKind.proof = some proof

/-- A stored kind that ends the trail. -/
def ends (kind : String) : Bool := (EventKind.parse kind).any EventKind.endsTrail

/-- The instant of the row listed last among those of a role. -/
def lastAt (latest : List (String × Int)) (role : String → Bool) : Option Int :=
  ((latest.filter fun row => role row.1).getLast?).map (·.2)

section
variable {latest : List (String × Int)} {role : String → Bool} {proof : ProofKind}
  {row : String × Int} {l : Loading}

theorem lastAt_cons : lastAt (row :: latest) role =
    (lastAt latest role).or (if role row.1 then some row.2 else none) := by
  rw [lastAt, lastAt, List.filter_cons]
  split
  case isTrue h =>
    cases hlast : (latest.filter fun row => role row.1).getLast? <;>
      simp [List.getLast?_cons, hlast]
  case isFalse h => rw [Option.or_none]

theorem Loading.row_loggedOutAt :
    (l.row row).loggedOutAt = if ends row.1 then some row.2 else l.loggedOutAt := by
  rw [Loading.row, ends]
  cases EventKind.parse row.1 with
  | none => rfl
  | some event => cases event <;> rfl

theorem Loading.row_proofs :
    (l.row row).proofs proof = if feeds proof row.1 then some row.2 else l.proofs proof := by
  have hupdate (other : ProofKind) : Function.update l.proofs other (some row.2) proof =
      if decide (some other = some proof) then some row.2 else l.proofs proof := by
    by_cases he : proof = other
    · simp [he]
    · simp [Function.update_of_ne he, Ne.symm he]
  rw [Loading.row, feeds]
  cases EventKind.parse row.1 with
  | none => rfl
  | some event => cases event <;> first | rfl | exact hupdate _

theorem foldl_loggedOutAt :
    (latest.foldl Loading.row l).loggedOutAt = (lastAt latest ends).or l.loggedOutAt := by
  induction latest generalizing l with
  | nil => rfl
  | cons row latest ih =>
    rw [List.foldl_cons, ih, Loading.row_loggedOutAt, lastAt_cons, Option.or_assoc]
    split <;> rfl

theorem foldl_proofs :
    (latest.foldl Loading.row l).proofs proof = (lastAt latest (feeds proof)).or (l.proofs proof) := by
  induction latest generalizing l with
  | nil => rfl
  | cons row latest ih =>
    rw [List.foldl_cons, ih, Loading.row_proofs, lastAt_cons, Option.or_assoc]
    split <;> rfl

/-- Of several rows that feed one proof, or end the trail, the loop keeps the one listed last. -/
theorem loadLatest_eq : loadLatest latest proof =
    (lastAt latest (feeds proof)).filter fun at_ => (lastAt latest ends).all (· < at_) := by
  have hproofs : (latest.foldl Loading.row {}).proofs proof = lastAt latest (feeds proof) := by
    rw [foldl_proofs, Option.or_none]
  rw [loadLatest, hproofs, foldl_loggedOutAt, Option.or_none]
  cases lastAt latest ends with
  | none => cases lastAt latest (feeds proof) <;> rfl
  | some logout => rfl

/-- Over the kinds a store knows, it is the load of the requests. -/
theorem loadLatest_asStr (listed : List (EventKind × Int)) :
    loadLatest (listed.map fun e => (e.1.asStr, e.2)) = loadProofs listed := by
  have hlast (role : String → Bool) (q : EventKind → Bool) (h : ∀ kind, role kind.asStr = q kind) :
      lastAt (listed.map fun e => (e.1.asStr, e.2)) role =
        ((listed.filter fun e => q e.1).getLast?).map (·.2) := by
    rw [lastAt, List.filter_map, List.getLast?_map, Option.map_map]
    simp only [Function.comp_def, h]
  funext proof
  rw [loadLatest_eq, loadProofs,
    hlast ends EventKind.endsTrail fun kind => by rw [ends, EventKind.parse_asStr]; rfl,
    hlast (feeds proof) (fun kind => !kind.endsTrail && kind.proof = some proof) fun kind => by
      rw [feeds, EventKind.parse_asStr]
      cases kind <;> rfl]

end

/-! ## What the query returns -/

section
variable {rows : List AuthEventRow} {sessionId : RowId} {latest : List (String × Int)}
  {role : String → Bool} {proof : ProofKind} {kind : String} {at_ : Int}

/-- The newest instant of a role on a session. -/
def newestAt (rows : List AuthEventRow) (sessionId : RowId) (role : String → Bool) : Option Int :=
  ((rows.filter fun row => row.sessionId = some sessionId && role row.kind).map (·.occurredAt)).max?

/-- What a session has proven: the newest proof of a kind, given after the trail last ended. -/
def newestProof (rows : List AuthEventRow) (sessionId : RowId) (proof : ProofKind) : Option Int :=
  (newestAt rows sessionId (feeds proof)).filter fun at_ =>
    (newestAt rows sessionId ends).all (· < at_)

theorem newestAt_eq_some : newestAt rows sessionId role = some at_ ↔
    (∃ row ∈ rows, row.sessionId = some sessionId ∧ role row.kind ∧ row.occurredAt = at_) ∧
    ∀ row ∈ rows, row.sessionId = some sessionId → role row.kind → row.occurredAt ≤ at_ := by
  rw [newestAt, List.max?_eq_some_iff]
  simp only [List.mem_map, List.mem_filter, Bool.and_eq_true, decide_eq_true_eq]
  constructor
  · rintro ⟨⟨row, ⟨hmem, hown, hrole⟩, hat⟩, hle⟩
    exact ⟨⟨row, hmem, hown, hrole, hat⟩, fun r hr ho hk => hle _ ⟨r, ⟨hr, ho, hk⟩, rfl⟩⟩
  · rintro ⟨⟨row, hmem, hown, hrole, hat⟩, hle⟩
    refine ⟨⟨row, ⟨hmem, hown, hrole⟩, hat⟩, ?_⟩
    rintro b ⟨r, ⟨hr, ho, hk⟩, rfl⟩
    exact hle r hr ho hk

/-- A group of the query is a kind the session has rows of, with their newest instant. -/
theorem mem_latestByKind : (kind, at_) ∈ AuthEventRow.latestByKind rows sessionId ↔
    newestAt rows sessionId (· = kind) = some at_ := by
  have hgroup : newestAt rows sessionId (· = kind) =
      (((rows.filter fun row => row.sessionId = some sessionId).filter fun row =>
        row.kind = kind).map (·.occurredAt)).max? := by
    rw [newestAt, List.filter_filter]
    simp only [Bool.and_comm]
  rw [AuthEventRow.latestByKind, List.mem_filterMap]
  constructor
  · rintro ⟨k, -, hk⟩
    obtain ⟨a, ha, hka⟩ := Option.map_eq_some_iff.mp hk
    cases hka
    exact hgroup.trans ha
  · intro h
    obtain ⟨row, hmem, hown, hrole, -⟩ := (newestAt_eq_some.mp h).1
    refine ⟨kind, List.mem_dedup.mpr (List.mem_map.mpr ⟨row, ?_, of_decide_eq_true hrole⟩), ?_⟩
    · exact List.mem_filter.mpr ⟨hmem, decide_eq_true hown⟩
    · rw [← hgroup, h, Option.map_some]

/-- The newest instant of a role is that of one of its groups. -/
theorem newestAt_of_perm (h : latest.Perm (AuthEventRow.latestByKind rows sessionId)) :
    newestAt rows sessionId role = ((latest.filter fun row => role row.1).map (·.2)).max? := by
  have hmem {kind : String} {at_ : Int} :
      (kind, at_) ∈ latest ↔ newestAt rows sessionId (· = kind) = some at_ :=
    (h.mem_iff).trans mem_latestByKind
  have hgroup {row : AuthEventRow} (hrow : row ∈ rows) (hown : row.sessionId = some sessionId) :
      ∃ a, (row.kind, a) ∈ latest ∧ row.occurredAt ≤ a := by
    cases hmax : newestAt rows sessionId (· = row.kind) with
    | none =>
      rw [newestAt, List.max?_eq_none_iff, List.map_eq_nil_iff, List.filter_eq_nil_iff] at hmax
      exact absurd (by simp [hown]) (hmax row hrow)
    | some a =>
      exact ⟨a, hmem.mpr hmax, (newestAt_eq_some.mp hmax).2 row hrow hown (by simp)⟩
  refine Option.ext fun at_ => ?_
  rw [newestAt_eq_some, List.max?_eq_some_iff]
  simp only [List.mem_map, List.mem_filter, Prod.exists, exists_eq_right]
  constructor
  · rintro ⟨⟨row, hrow, hown, hrole, rfl⟩, hle⟩
    refine ⟨⟨row.kind, ?_, hrole⟩, ?_⟩
    · obtain ⟨a, ha, hrowa⟩ := hgroup hrow hown
      obtain ⟨r, hr, ho, hk, rfl⟩ := (newestAt_eq_some.mp (hmem.mp ha)).1
      have hback := hle r hr ho (by rwa [of_decide_eq_true hk])
      rwa [Int.le_antisymm hrowa hback]
    · rintro b ⟨kind, hb, hrole'⟩
      obtain ⟨r, hr, ho, hk, rfl⟩ := (newestAt_eq_some.mp (hmem.mp hb)).1
      exact hle r hr ho (by rwa [of_decide_eq_true hk])
  · rintro ⟨⟨kind, hin, hrole⟩, hle⟩
    obtain ⟨r, hr, ho, hk, rfl⟩ := (newestAt_eq_some.mp (hmem.mp hin)).1
    refine ⟨⟨r, hr, ho, by rwa [of_decide_eq_true hk], rfl⟩, fun row hrow hown hrole' => ?_⟩
    obtain ⟨a, ha, hrowa⟩ := hgroup hrow hown
    exact Int.le_trans hrowa (hle a ⟨row.kind, ha, hrole'⟩)

end

namespace Store
variable {s : Store} {sessionId : RowId}

/-- The trail as the query reads it. -/
def authEventRows (s : Store) : List AuthEventRow :=
  s.events.rows.map fun e => ⟨e.2.sessionId, e.2.kind.asStr, e.2.occurredAt⟩

theorem newestAt_authEventRows (role : String → Bool) :
    newestAt s.authEventRows sessionId role =
      (((s.events.rows.map (·.2)).filter fun e =>
        e.sessionId = some sessionId && role e.kind.asStr).map (·.occurredAt)).max? := by
  rw [newestAt, authEventRows, List.filter_map, List.filter_map, List.map_map, List.map_map]
  rfl

theorem newestAt_kind (kind : EventKind) :
    newestAt s.authEventRows sessionId (· = kind.asStr) = s.latestOf sessionId kind := by
  have hrole (k : EventKind) : decide (k.asStr = kind.asStr) = decide (k = kind) :=
    decide_eq_decide.mpr ⟨EventKind.asStr_injective, congrArg _⟩
  rw [newestAt_authEventRows, latestOf]
  simp only [hrole]

/-- Keyed by what is listed once, a listing has no row twice. -/
theorem nodup_keyed {K : Type} {g : K → Option Int} {l : List K} (h : l.Nodup) :
    (l.filterMap fun k => (g k).map (k, ·)).Nodup := by
  refine h.filterMap fun k k' b hb hb' => ?_
  obtain ⟨_, -, rfl⟩ := Option.map_eq_some_iff.mp hb
  obtain ⟨_, -, heq⟩ := Option.map_eq_some_iff.mp hb'
  exact (congrArg Prod.fst heq).symm

/-- The listing by kind is one that the query may return. -/
theorem perm_latestByKind (s : Store) (sessionId : RowId) :
    ((s.authEventLatestByKind sessionId).map fun e => (e.1.asStr, e.2)).Perm
      (AuthEventRow.latestByKind s.authEventRows sessionId) := by
  refine (List.perm_ext_iff_of_nodup ?_ ?_).mpr ?_
  · refine List.Nodup.map ?_ (nodup_keyed EventKind.nodup_all)
    rintro ⟨k, a⟩ ⟨k', a'⟩ heq
    rw [Prod.mk.injEq] at heq
    exact Prod.ext (EventKind.asStr_injective heq.1) heq.2
  · exact nodup_keyed (List.nodup_dedup _)
  rintro ⟨kind, at_⟩
  rw [mem_latestByKind, authEventLatestByKind_eq, List.mem_map]
  constructor
  · rintro ⟨⟨k, a⟩, hmem, heq⟩
    obtain ⟨k', -, hk'⟩ := List.mem_filterMap.mp hmem
    obtain ⟨a', ha', hka⟩ := Option.map_eq_some_iff.mp hk'
    cases hka
    cases heq
    exact (newestAt_kind k).trans ha'
  · intro h
    obtain ⟨row, hmem, -, hkind, -⟩ := (newestAt_eq_some.mp h).1
    obtain ⟨e, -, rfl⟩ := List.mem_map.mp hmem
    rw [← of_decide_eq_true hkind, newestAt_kind] at h
    refine ⟨(e.2.kind, at_), ?_, by rw [← of_decide_eq_true hkind]⟩
    exact List.mem_filterMap.mpr ⟨e.2.kind, EventKind.mem_all _, by rw [h]; rfl⟩

end Store

/-! ## The last listed and the newest -/

/-- The instants listed for a role, in the order of the listing. -/
def instants (latest : List (String × Int)) (role : String → Bool) : List Int :=
  (latest.filter fun row => role row.1).map (·.2)

/-- The listing of a proof that the last row of a role stands for: if the proof was given after
every end of the trail, the last row that feeds it is the newest such, else the last row that ends
the trail is no older than it. -/
def Settles (latest : List (String × Int)) (proof : ProofKind) : Prop :=
  let given := instants latest (feeds proof)
  let ended := instants latest ends
  ∀ last ∈ given.getLast?,
    ((∃ a ∈ given, ∀ e ∈ ended, e < a) → ∀ a ∈ given, a ≤ last) ∧
    ((∀ a ∈ given, ∃ e ∈ ended, a ≤ e) → ∃ e ∈ ended.getLast?, last ≤ e)

section
variable {given ended l : List Int} {a last : Int}

theorem all_max?_iff : l.max?.all (· < a) ↔ ∀ e ∈ l, e < a := by
  cases hmax : l.max? with
  | none =>
    rw [List.max?_eq_none_iff.mp hmax]
    simp
  | some m =>
    obtain ⟨hin, hle⟩ := List.max?_eq_some_iff.mp hmax
    rw [Option.all_some, decide_eq_true_eq]
    exact ⟨fun h e he => Int.lt_of_le_of_lt (hle e he) h, fun h => h m hin⟩

theorem all_getLast?_iff : l.getLast?.all (· < a) ↔ ¬∃ e ∈ l.getLast?, a ≤ e := by
  cases l.getLast? <;> simp

theorem all_getLast?_of_forall (h : ∀ e ∈ l, e < a) : l.getLast?.all (· < a) := by
  rw [all_getLast?_iff]
  rintro ⟨e, he, hle⟩
  exact absurd (h e (List.mem_of_getLast? he)) (Int.not_lt.mpr hle)

theorem exists_max?_of_getLast? (h : l.getLast? = some last) : ∃ n, l.max? = some n := by
  cases hmax : l.max? with
  | none =>
    rw [List.max?_eq_none_iff.mp hmax] at h
    cases h
  | some n => exact ⟨n, rfl⟩

/-- What is read off the last of two lists is what is read off their greatest. -/
theorem last_eq_newest_iff :
    (given.getLast?.filter fun a => ended.getLast?.all (· < a)) =
      (given.max?.filter fun a => ended.max?.all (· < a)) ↔
    ∀ last ∈ given.getLast?,
      ((∃ a ∈ given, ∀ e ∈ ended, e < a) → ∀ a ∈ given, a ≤ last) ∧
      ((∀ a ∈ given, ∃ e ∈ ended, a ≤ e) → ∃ e ∈ ended.getLast?, last ≤ e) := by
  cases hlast : given.getLast? with
  | none =>
    rw [List.getLast?_eq_none_iff.mp hlast]
    simp
  | some last =>
    have hmem := List.mem_of_getLast? hlast
    obtain ⟨n, hn⟩ := exists_max?_of_getLast? hlast
    obtain ⟨hin, hle⟩ := List.max?_eq_some_iff.mp hn
    have hnewest : (∀ a ∈ given, a ≤ last) ↔ last = n :=
      ⟨fun h => Int.le_antisymm (hle last hmem) (h n hin), fun h => h ▸ hle⟩
    have houtlives : (∃ a ∈ given, ∀ e ∈ ended, e < a) ↔ ∀ e ∈ ended, e < n := by
      refine ⟨?_, fun h => ⟨n, hin, h⟩⟩
      rintro ⟨a, ha, hall⟩ e he
      exact Int.lt_of_lt_of_le (hall e he) (hle a ha)
    have hover : (∀ a ∈ given, ∃ e ∈ ended, a ≤ e) ↔ ¬∀ e ∈ ended, e < n := by
      simp only [not_forall, Int.not_lt, exists_prop]
      refine ⟨fun h => h n hin, ?_⟩
      rintro ⟨e, he, hne⟩ a ha
      exact ⟨e, he, Int.le_trans (hle a ha) hne⟩
    have hlistedAfter : (∃ e ∈ ended.getLast?, last ≤ e) ↔ ¬ended.getLast?.all (· < last) := by
      rw [all_getLast?_iff, not_not]
    rw [hn]
    simp only [Option.mem_def, Option.some.injEq, forall_eq', hnewest]
    simp only [← Option.mem_def, houtlives, hover, hlistedAfter, Option.filter_some, all_max?_iff]
    by_cases hafter : ∀ e ∈ ended, e < n
    · rw [if_pos hafter]
      refine ⟨fun h => ⟨fun _ => ?_, fun hno => absurd hafter hno⟩, fun h => ?_⟩
      · split at h
        · exact Option.some.inj h
        · cases h
      · rw [h.1 hafter, if_pos (all_getLast?_of_forall hafter)]
    · rw [if_neg hafter]
      refine ⟨fun h => ⟨fun hall => absurd hall hafter, fun _ => ?_⟩, fun h => if_neg (h.2 hafter)⟩
      split at h
      · cases h
      · assumption

end

/-- The proofs a session is loaded with are its newest, given after its trail ended, exactly when
the listing has each of them settled by its last rows. -/
theorem load_proofs_newest_iff (rows : List AuthEventRow) (sessionId : RowId)
    (latest : List (String × Int))
    (h : latest.Perm (AuthEventRow.latestByKind rows sessionId)) :
    (∀ proof, loadLatest latest proof = newestProof rows sessionId proof) ↔
      ∀ proof, Settles latest proof := by
  refine forall_congr' fun proof => ?_
  have hlast (role : String → Bool) : lastAt latest role = (instants latest role).getLast? := by
    rw [lastAt, instants, List.getLast?_map]
  have hnewest (role : String → Bool) :
      newestAt rows sessionId role = (instants latest role).max? := newestAt_of_perm h
  rw [loadLatest_eq, newestProof, hlast, hlast, hnewest, hnewest]
  exact last_eq_newest_iff

namespace Sample

/-- A password given to sign in and typed again five minutes later. -/
def confirmed : List AuthEventRow :=
  [⟨some 1, "password", 1000⟩, ⟨some 1, "password_confirmed", 1300⟩]

end Sample

theorem load_proofs_newest_confirmed :
    (∀ proof, loadLatest [("password", 1000), ("password_confirmed", 1300)] proof =
      newestProof Sample.confirmed 1 proof) ↔
    ∀ proof, Settles [("password", 1000), ("password_confirmed", 1300)] proof :=
  load_proofs_newest_iff Sample.confirmed 1 _ (by decide)

/-- Listed the other way round, the confirmation is lost to the sign-in before it. -/
theorem load_proofs_not_newest : ¬∀ (rows : List AuthEventRow) (sessionId : RowId)
    (latest : List (String × Int)),
    latest.Perm (AuthEventRow.latestByKind rows sessionId) →
    ∀ proof, loadLatest latest proof = newestProof rows sessionId proof := by
  intro h
  have hload := h Sample.confirmed 1 [("password_confirmed", 1300), ("password", 1000)] (by decide)
    .password
  exact absurd hload (by decide)

end TunnelWeaver.Account
