import TunnelWeaver.Account.Authenticator

/-! The wrong codes one session may submit at the authenticator step (`login_totp` of
`account/router.rs`). What has been spent is counted over the session's own failures before a code is
compared, and a failure is recorded after: both are steps of their own. -/

namespace TunnelWeaver.Account

open Automaton

namespace Authenticator

variable (x : Sealed)

/-- `verify` up to its write, with what it answers. -/
def compareCode (totps : Table TotpCredential) (accountId : RowId) (candidate : String)
    (wrongCodes : Nat) (now : Int) (fails : Bool) :
    Except Site.AuthenticatorError (RowId × Int) :=
  if Site.maxWrongCodes ≤ wrongCodes then .error .tooManyAttempts
  else if fails then .error .unavailable
  else match matchApps x (confirmedForAccount totps accountId) accountId candidate now with
    | none => .error .wrong
    | some found => .ok found

theorem verifyMatch_eq (totps : Table TotpCredential) (accountId : RowId) (candidate : String)
    (wrongCodes : Nat) (now : Int) : verifyMatch x totps accountId candidate wrongCodes now =
      (compareCode x totps accountId candidate wrongCodes now false).toOption.map fun found =>
        .recording found.1 now found.2 := by
  unfold verifyMatch compareCode
  split
  · rfl
  · rw [if_neg Bool.false_ne_true]
    cases matchApps x (confirmedForAccount totps accountId) accountId candidate now <;> rfl

/-- A code is found wrong only while the allowance lasts. -/
theorem compareCode_wrong {totps : Table TotpCredential} {accountId : RowId} {candidate : String}
    {wrongCodes : Nat} {now : Int} {fails : Bool}
    (h : compareCode x totps accountId candidate wrongCodes now fails = .error .wrong) :
    wrongCodes < Site.maxWrongCodes := by
  by_contra hnot
  rw [compareCode, if_pos (Nat.not_lt.mp hnot)] at h
  cases h

end Authenticator

namespace Allowance

open Authenticator

/-! ## Requests -/

/-- A request in progress; `at_` is the instant its events are recorded under. -/
inductive Login
  | counted (candidate : String) (wrongCodes : Nat) (now at_ : Int)
  | matched (id : RowId) (step at_ : Int)
  | refused (error : Site.AuthenticatorError) (at_ : Int)
  deriving DecidableEq

def Login.at_ : Login → Int
  | counted _ _ _ at_ | matched _ _ at_ | refused _ at_ => at_

/-- A wrong code has been compared, and is not recorded yet. -/
def Login.owes : Login → Bool
  | refused .wrong _ => true
  | _ => false

/-- One session, from `createdAt` on. -/
structure World where
  store : Store
  totps : Table TotpCredential
  session : SessionContext
  createdAt : Int
  clock : Int
  requests : List Login := []
  /-- The wrong codes compared in the lifetime of the session. -/
  wrong : Nat := 0

inductive Act
  | tick (secs : Nat)
  /-- A request that came in at `at_` counts the failures. -/
  | count (candidate : String) (at_ : Int) (fails : Bool)
  | compare (index : Nat) (fails : Bool)
  | useStep (index : Nat) (fails : Bool)
  | record (index : Nat) (fails : Bool)
  /-- Any other event, on whatever session. -/
  | event (event : AuthEvent)
  /-- Enrolments, removals and the codes of other sessions. -/
  | enrol (totps : Table TotpCredential)

variable (x : Sealed) (sessionTtlSecs : Int)

namespace World

/-- `auth_event_count_since` of the session's failures. -/
def failuresSince (w : World) (since : Int) : Nat :=
  w.store.authEventCountSince w.session.sessionId .totpFailed since

/-- `totp_failed`. -/
def totpFailed (w : World) (at_ : Int) : Store × Bool :=
  w.store.authEventInsert
    { accountId := some w.session.accountId, sessionId := some w.session.sessionId
      kind := .totpFailed, occurredAt := at_ }

def step (w : World) : Act → Option World
  | .tick secs => some { w with clock := w.clock + secs }
  | .count candidate at_ fails =>
    if at_ < w.createdAt ∨ w.clock < at_ then none
    else
      let wrongCodes := if fails then 0 else w.failuresSince (w.clock - sessionTtlSecs)
      some { w with requests := w.requests ++ [.counted candidate wrongCodes w.clock at_] }
  | .compare index fails =>
    match w.requests[index]? with
    | some (.counted candidate wrongCodes now at_) =>
      match compareCode x w.totps w.session.accountId candidate wrongCodes now fails with
      | .ok (id, step) => some { w with requests := w.requests.set index (.matched id step at_) }
      | .error error => some
        { w with
          requests := w.requests.set index (.refused error at_)
          wrong :=
            if error = .wrong ∧ w.clock < w.createdAt + sessionTtlSecs then w.wrong + 1
            else w.wrong }
    | _ => none
  | .useStep index fails =>
    match w.requests[index]? with
    | some (.matched id step at_) =>
      if fails then
        some { w with requests := w.requests.set index (.refused .unavailable at_) }
      else match totpRecordUse w.totps id step with
        | (totps, true) => some { w with totps, requests := w.requests.eraseIdx index }
        | (totps, false) => some
          { w with totps, requests := w.requests.set index (.refused .used at_) }
    | _ => none
  | .record index fails =>
    match w.requests[index]? with
    | some (.refused _ at_) => some
      { w with
        store := if fails then w.store else (w.totpFailed at_).1
        requests := w.requests.eraseIdx index }
    | _ => none
  | .event event => some { w with store := (w.store.authEventInsert event).1 }
  | .enrol totps => some { w with totps }

/-- A session that has just been opened. -/
structure Initial (w : World) : Prop where
  requests : w.requests = []
  wrong : w.wrong = 0
  clock : w.createdAt ≤ w.clock

/-- A request counts while no other is in progress, and what it counts is not lost on a failing read;
a wrong code is recorded. -/
def Alone (w : World) : Act → Prop
  | .count _ _ fails =>
    w.requests = [] ∧ (fails → w.failuresSince (w.clock - sessionTtlSecs) = 0)
  | .record index fails => (w.requests[index]?).all fun r =>
    !r.owes || !fails && (w.store.accountById w.session.accountId).isSome
  | _ => True

instance (w : World) : (a : Act) → Decidable (w.Alone sessionTtlSecs a)
  | .count _ _ _ => inferInstanceAs (Decidable (_ ∧ (_ → _)))
  | .record _ _ => inferInstanceAs (Decidable (_ = true))
  | .tick _ | .compare _ _ | .useStep _ _ | .event _ | .enrol _ =>
    inferInstanceAs (Decidable True)

/-! ## The rows count -/

theorem failuresSince_insert (w : World) (event : AuthEvent) (since : Int) :
    w.failuresSince since ≤
      failuresSince { w with store := (w.store.authEventInsert event).1 } since := by
  unfold failuresSince Store.authEventInsert
  split
  · exact Nat.le_refl _
  · exact (Nat.le_add_right _ _).trans_eq Table.count_insert.symm

theorem failuresSince_totpFailed {w : World} {since at_ : Int}
    (haccount : (w.store.accountById w.session.accountId).isSome) (hat : since ≤ at_) :
    failuresSince { w with store := (w.totpFailed at_).1 } since = w.failuresSince since + 1 := by
  obtain ⟨row, hrow⟩ := Option.isSome_iff_exists.mp haccount
  unfold failuresSince totpFailed Store.authEventInsert
  rw [if_neg (by simp [hrow])]
  refine Table.count_insert.trans ?_
  rw [if_pos (by simpa using hat)]
  rfl

/-- An earlier start counts no less. -/
theorem failuresSince_anti (w : World) {since since' : Int} (h : since ≤ since') :
    w.failuresSince since' ≤ w.failuresSince since := by
  unfold failuresSince Store.authEventCountSince
  refine Table.count_mono fun _ e he => ?_
  simp only [Bool.and_eq_true, decide_eq_true_eq] at he ⊢
  exact ⟨he.1, Int.le_trans h he.2⟩

/-- What a request owes to the rows. -/
def owed (requests : List Login) : Nat := requests.countP Login.owes

/-- The wrong codes are counted in the rows, or owed to them. -/
structure Counted (w : World) : Prop where
  clock : w.createdAt ≤ w.clock
  single : w.requests.length ≤ 1
  since : ∀ r ∈ w.requests, w.createdAt ≤ r.at_
  bound : w.wrong ≤ Site.maxWrongCodes
  rows : w.wrong ≤ w.failuresSince w.createdAt + owed w.requests
  counted : w.clock < w.createdAt + sessionTtlSecs →
    ∀ candidate wrongCodes now at_, .counted candidate wrongCodes now at_ ∈ w.requests →
      w.wrong ≤ wrongCodes

variable {x sessionTtlSecs}

theorem Initial.counted {w : World} (h : w.Initial) : w.Counted sessionTtlSecs := by
  obtain ⟨hrequests, hwrong, hclock⟩ := h
  constructor <;> simp [hrequests, hwrong, hclock]

/-- The one request in progress. -/
theorem Counted.eq_singleton {w : World} (h : w.Counted sessionTtlSecs) {index : Nat} {r : Login}
    (hget : w.requests[index]? = some r) : index = 0 ∧ w.requests = [r] := by
  have hsingle := h.single
  obtain ⟨hlt, rfl⟩ := List.getElem?_eq_some_iff.mp hget
  obtain rfl : index = 0 := by omega
  obtain ⟨r, hr⟩ := List.length_eq_one_iff.mp (Nat.le_antisymm hsingle hlt)
  simp [hr]

/-- While nothing is owed, the rows count every wrong code. -/
theorem Counted.settled {w : World} (h : w.Counted sessionTtlSecs) (howed : owed w.requests = 0) :
    w.wrong ≤ w.failuresSince w.createdAt := by
  have hrows := h.rows
  rw [howed] at hrows
  exact hrows

/-- The request moves on to one that owes no more than the wrong codes compared. -/
theorem Counted.move {w : World} (h : w.Counted sessionTtlSecs) {r r' : Login} {wrong : Nat}
    {totps : Table TotpCredential} (hr : w.requests = [r]) (hat : r'.at_ = r.at_)
    (hbound : wrong ≤ Site.maxWrongCodes)
    (hrows : wrong ≤ w.failuresSince w.createdAt + owed [r'])
    (hkind : ∀ candidate wrongCodes now at_, .counted candidate wrongCodes now at_ ≠ r') :
    Counted sessionTtlSecs { w with totps, requests := [r'], wrong } where
  clock := h.clock
  single := Nat.le_refl _
  since := by
    intro r₁ hr₁
    obtain rfl := List.mem_singleton.mp hr₁
    rw [hat]
    exact h.since r (hr ▸ List.mem_singleton_self r)
  bound := hbound
  rows := hrows
  counted := fun _ _ _ _ _ hmem => absurd (List.mem_singleton.mp hmem) (hkind _ _ _ _)

/-- The request is over, and what it owed is in the rows. -/
theorem Counted.over {w : World} (h : w.Counted sessionTtlSecs) {store : Store}
    {totps : Table TotpCredential}
    (hrows : w.wrong ≤ failuresSince { w with store } w.createdAt) :
    Counted sessionTtlSecs { w with store, totps, requests := [] } where
  clock := h.clock
  single := Nat.zero_le _
  since := fun _ hr => absurd hr List.not_mem_nil
  bound := h.bound
  rows := hrows
  counted := fun _ _ _ _ _ hmem => absurd hmem List.not_mem_nil

theorem Counted.step {w w' : World} {a : Act} (h : w.Counted sessionTtlSecs)
    (ha : w.Alone sessionTtlSecs a) (hstep : w.step x sessionTtlSecs a = some w') :
    w'.Counted sessionTtlSecs := by
  cases a with
  | tick secs =>
    cases hstep
    have hclock : w.clock ≤ w.clock + secs := Int.le_add_of_nonneg_right (Int.natCast_nonneg _)
    exact ⟨Int.le_trans h.clock hclock, h.single, h.since, h.bound, h.rows,
      fun hlt => h.counted (Int.lt_of_le_of_lt hclock hlt)⟩
  | count candidate at_ fails =>
    obtain ⟨hidle, hfails⟩ := ha
    simp only [World.step] at hstep
    by_cases hat : at_ < w.createdAt ∨ w.clock < at_
    · rw [if_pos hat] at hstep
      cases hstep
    rw [if_neg hat] at hstep
    cases hstep
    rw [not_or, Int.not_lt, Int.not_lt] at hat
    have hrows := h.settled (by rw [hidle]; rfl)
    rw [hidle, List.nil_append]
    refine ⟨h.clock, Nat.le_refl _, ?_, h.bound, hrows, ?_⟩
    · intro r hr
      obtain rfl := List.mem_singleton.mp hr
      exact hat.1
    · intro hlt candidate' wrongCodes now at' hmem
      cases List.mem_singleton.mp hmem
      change w.wrong ≤ if fails then 0 else w.failuresSince (w.clock - sessionTtlSecs)
      -- the window counted over goes back to where the session began
      have hwindow : w.failuresSince w.createdAt ≤
          w.failuresSince (w.clock - sessionTtlSecs) := w.failuresSince_anti (by
        dsimp only at hlt
        omega)
      split
      · rename_i hfail
        rw [hfails hfail] at hwindow
        exact Nat.le_trans hrows hwindow
      · exact Nat.le_trans hrows hwindow
  | compare index fails =>
    simp only [World.step] at hstep
    split at hstep
    · rename_i candidate wrongCodes now at_ hget
      obtain ⟨rfl, hr⟩ := h.eq_singleton hget
      have hrows := h.settled (by rw [hr]; rfl)
      rw [hr] at hstep
      split at hstep
      · cases hstep
        exact h.move hr rfl h.bound (Nat.le_add_right_of_le hrows) (by simp)
      · rename_i error hcompare
        cases hstep
        refine h.move hr rfl ?_ ?_ (by simp)
        · split
          · rename_i hwrong
            obtain ⟨rfl, hlt⟩ := hwrong
            have hallowed := compareCode_wrong x hcompare
            exact Nat.lt_of_le_of_lt (h.counted hlt _ _ _ _ (hr ▸ List.mem_singleton_self _)) hallowed
          · exact h.bound
        · split
          · rename_i hwrong
            rw [hwrong.1]
            exact Nat.add_le_add_right hrows 1
          · exact Nat.le_add_right_of_le hrows
    · cases hstep
  | useStep index fails =>
    simp only [World.step] at hstep
    split at hstep
    · rename_i id step at_ hget
      obtain ⟨rfl, hr⟩ := h.eq_singleton hget
      have hrows := h.settled (by rw [hr]; rfl)
      rw [hr] at hstep
      split_ifs at hstep
      · cases hstep
        exact h.move hr rfl h.bound (Nat.le_add_right_of_le hrows) (by simp)
      · split at hstep
        · cases hstep
          exact h.over hrows
        · cases hstep
          exact h.move hr rfl h.bound (Nat.le_add_right_of_le hrows) (by simp)
    · cases hstep
  | record index fails =>
    simp only [World.step] at hstep
    split at hstep
    · rename_i error at_ hget
      obtain ⟨rfl, hr⟩ := h.eq_singleton hget
      cases hstep
      rw [hr]
      refine h.over ?_
      have hrows := h.rows
      rw [hr] at hrows
      by_cases hwrong : Login.owes (.refused error at_)
      · have hstored : fails = false ∧ (w.store.accountById w.session.accountId).isSome := by
          simpa [World.Alone, hr, hwrong] using ha
        have hsince := h.since _ (List.mem_of_getElem? hget)
        rw [owed, List.countP_singleton, if_pos hwrong] at hrows
        rw [hstored.1, if_neg Bool.false_ne_true]
        exact hrows.trans_eq (failuresSince_totpFailed hstored.2 hsince).symm
      · rw [owed, List.countP_singleton, if_neg hwrong] at hrows
        split
        · exact hrows
        · exact Nat.le_trans hrows (w.failuresSince_insert _ _)
    · cases hstep
  | event event =>
    cases hstep
    refine ⟨h.clock, h.single, h.since, h.bound, ?_, h.counted⟩
    exact Nat.le_trans h.rows (Nat.add_le_add_right (w.failuresSince_insert _ _) _)
  | enrol totps =>
    cases hstep
    exact ⟨h.clock, h.single, h.since, h.bound, h.rows, h.counted⟩

variable (x sessionTtlSecs)

namespace Sample

/-- An account with one app, signed in at 1000. -/
def opened : World where
  store := { accounts := (∅ : Table AccountRow).insert { name := "Ana" } }
  totps := (∅ : Table TotpCredential).insert
    { accountId := 1, secret := "sealed", confirmedAt := some 900, lastUsedStep := some 30
      createdAt := 890 }
  session := { sessionId := 7, accountId := 1 }
  createdAt := 1000
  clock := 1000

theorem opened_initial : opened.Initial := ⟨rfl, rfl, Int.le_refl _⟩

/-- A wrong code, from the count to its record. -/
def wrongCode (code : String) : List Act :=
  [.count code 1000 false, .compare 0 false, .record 0 false]

def inTurn : List Act :=
  [.tick 5] ++ wrongCode "123456" ++ wrongCode "111111" ++ wrongCode "222222" ++
    wrongCode "333333" ++ wrongCode "444444" ++ wrongCode "555555"

/-- Six requests count before any of them records what it found. -/
def atOnce : List Act :=
  (["123456", "111111", "222222", "333333", "444444", "555555"].map fun code =>
    .count code 1000 false) ++ (List.range 6).map fun i => .compare i false

end Sample

end World

end Allowance

end TunnelWeaver.Account
