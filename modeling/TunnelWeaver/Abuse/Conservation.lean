import TunnelWeaver.Abuse.Gcra

/-! How many unit-cost checks a bucket admits within one refill period. -/

namespace TunnelWeaver.Abuse

/-- The checks of a bucket at these instants, as an automaton. -/
def unitCheck (q : Quota) (retryCapMs : Int) (g : Gcra) (now : Int) : Option Gcra :=
  some (g.check q 1 now retryCapMs).1

/-- The instants of the checks that are admitted. -/
def admissions (q : Quota) (retryCapMs : Int) : Gcra → List Int → List Int
  | _, [] => []
  | g, now :: nows =>
    let x := g.check q 1 now retryCapMs
    if x.2.outcome = .admitted then now :: admissions q retryCapMs x.1 nows
    else admissions q retryCapMs x.1 nows

/-- Those within a half-open window of one period. -/
def within (q : Quota) (start : Int) (instants : List Int) : List Int :=
  instants.filter fun now => start ≤ now ∧ now < start + q.perMs

/-- An admission does not run into the end of 64-bit time. -/
def InTime (q : Quota) (g : Gcra) (now : Int) : Prop :=
  g.arrival now + q.emissionMs ≤ I64.maxValue

instance (q : Quota) (g : Gcra) (now : Int) : Decidable (InTime q g now) := Int.decLe _ _

/-- The bucket runs ahead of an instant by `n` intervals. -/
def Ahead (q : Quota) (start : Int) (n : Nat) (g : Gcra) : Prop :=
  0 < n → ∃ tat, g.tatMs = some tat ∧ start + n * q.emissionMs ≤ tat

section
variable {q : Quota} {retryCapMs start : Int} {g : Gcra} {now : Int} {nows : List Int}

@[simp] theorem admissions_nil : admissions q retryCapMs g [] = [] := rfl

theorem admissions_of_admits (h : g.admits q now = true) :
    admissions q retryCapMs g (now :: nows) =
      now :: admissions q retryCapMs (g.charged q 1 now) nows := by
  rw [admissions, Gcra.check_of_admits h]
  rfl

theorem admissions_of_refuses (h : g.admits q now = false) :
    admissions q retryCapMs g (now :: nows) = admissions q retryCapMs g nows := by
  rw [admissions, Gcra.check_of_refuses h]
  rfl

theorem within_cons : within q start (now :: nows) =
    if start ≤ now ∧ now < start + q.perMs then now :: within q start nows
    else within q start nows := by
  by_cases h : start ≤ now ∧ now < start + q.perMs
  · rw [if_pos h]
    exact List.filter_cons_of_pos (by simpa using h)
  · rw [if_neg h]
    exact List.filter_cons_of_neg (by simpa using h)

theorem le_charged (hemission : q.emissionMs ≤ I64.maxValue) (hin : InTime q g now) :
    g.arrival now + q.emissionMs ≤ I64.saturatingAdd (g.arrival now) (q.costMs 1) := by
  rw [q.costMs_one hemission]
  exact I64.le_saturate hin

theorem arrival_of_ahead {n : Nat} (h : Ahead q start n g) (hstart : start ≤ now) :
    start + n * q.emissionMs ≤ g.arrival now := by
  cases n with
  | zero => simpa using hstart.trans g.le_arrival
  | succ n =>
    obtain ⟨tat, htat, hle⟩ := h n.succ_pos
    rw [Gcra.arrival, htat]
    exact hle.trans (le_max_left _ _)

/-- An admission in the window puts the bucket one interval further ahead, and finds it less than the
bound ahead. -/
theorem ahead_charged (hemission : q.emissionMs ≤ I64.maxValue) (hin : InTime q g now) {n : Nat}
    (h : Ahead q start n g) (hstart : start ≤ now) : Ahead q start (n + 1) (g.charged q 1 now) := by
  refine fun _ => ⟨_, rfl, ?_⟩
  have hbefore := arrival_of_ahead h hstart
  have hafter := le_charged hemission hin
  push_cast
  linarith

theorem lt_of_ahead (hfits : q.perMs ≤ q.emissionMs * (q.units + 1)) (hburst : 1 ≤ q.burst)
    (hin : InTime q g now) {n : Nat} (h : Ahead q start n g) (hstart : start ≤ now)
    (hend : now < start + q.perMs) (hadmits : g.admits q now = true) : n < q.burst + q.units := by
  have hahead := arrival_of_ahead h hstart
  have hmax : g.arrival now ≤ I64.maxValue := by
    have := q.emissionMs_pos
    unfold InTime at hin
    omega
  have hbehind := Gcra.arrival_le_of_admits hmax hadmits
  rw [Nat.cast_pred hburst] at hbehind
  have hlt : (n : Int) * q.emissionMs < (q.burst + q.units : Nat) * q.emissionMs := by
    push_cast
    linarith
  exact_mod_cast lt_of_mul_lt_mul_right hlt (by have := q.emissionMs_pos; omega)

/-- A refusal, or an admission outside the window, leaves the bucket as far ahead as it was. -/
theorem ahead_charged_of_ahead (hemission : q.emissionMs ≤ I64.maxValue) (hin : InTime q g now)
    {n : Nat} (h : Ahead q start n g) : Ahead q start n (g.charged q 1 now) := by
  intro hn
  obtain ⟨tat, htat, hle⟩ := h hn
  refine ⟨_, rfl, ?_⟩
  have harrival : tat ≤ g.arrival now := by
    rw [Gcra.arrival, htat]
    exact le_max_left _ _
  have hafter := le_charged hemission hin
  have := q.emissionMs_pos
  linarith

/-- A bucket ahead of a window by `n` intervals admits in it what is missing from `n` to the bound. -/
theorem length_within_le (start : Int) (hemission : q.emissionMs ≤ I64.maxValue)
    (hfits : q.perMs ≤ q.emissionMs * (q.units + 1)) (hburst : 1 ≤ q.burst) {n : Nat}
    (hahead : Ahead q start n g)
    (h : Automaton.Meets (unitCheck q retryCapMs) (InTime q) g nows) :
    n + (within q start (admissions q retryCapMs g nows)).length ≤ max n (q.burst + q.units) := by
  induction nows generalizing g n with
  | nil => simp [within]
  | cons now nows ih =>
    obtain ⟨hin, hrest⟩ := h
    specialize hrest _ rfl
    cases hadmits : g.admits q now with
    | false =>
      rw [admissions_of_refuses hadmits]
      rw [Gcra.check_of_refuses hadmits] at hrest
      exact ih hahead hrest
    | true =>
      rw [admissions_of_admits hadmits, within_cons]
      rw [Gcra.check_of_admits hadmits] at hrest
      split
      · next hwindow =>
        have hlt := lt_of_ahead hfits hburst hin hahead hwindow.1 hwindow.2 hadmits
        have hmore := ih (ahead_charged hemission hin hahead hwindow.1) hrest
        rw [List.length_cons]
        omega
      · exact ih (ahead_charged_of_ahead hemission hin hahead) hrest

end

/-! ## Where the bound is passed -/

section
variable {q : Quota}

/-- The instants at which a bucket that was full at 0 admits as early as it can. -/
def earliest (q : Quota) (n : Nat) : Int := ((n - (q.burst - 1) : Nat) : Int) * q.emissionMs

theorem earliest_mono : Monotone (earliest q) := fun _ _ h =>
  mul_le_mul_of_nonneg_right (by omega) (by have := q.emissionMs_pos; omega)

theorem earliest_nonneg (n : Nat) : 0 ≤ earliest q n :=
  mul_nonneg (Int.natCast_nonneg _) (by have := q.emissionMs_pos; omega)

theorem earliest_le (n : Nat) : earliest q n ≤ n * q.emissionMs :=
  mul_le_mul_of_nonneg_right (by omega) (by have := q.emissionMs_pos; omega)

theorem toleranceMs_eq (h : (q.burst : Int) * q.emissionMs ≤ I64.maxValue) :
    q.toleranceMs = (q.burst - 1 : Nat) * q.emissionMs := by
  have hpos := q.emissionMs_pos
  refine I64.saturate_of_mem ?_ (le_trans ?_ h)
  · exact le_trans (by decide) (mul_nonneg (Int.natCast_nonneg _) (by omega : 0 ≤ q.emissionMs))
  · exact mul_le_mul_of_nonneg_right (by omega) (by omega)

/-- The bucket after `n` admissions admits at the next of these instants. -/
theorem admits_earliest (hburst : (q.burst : Int) * q.emissionMs ≤ I64.maxValue) {n : Nat} :
    (Gcra.mk (some (n * q.emissionMs))).admits q (earliest q n) = true := by
  have hpos := q.emissionMs_pos
  have harrival : (Gcra.mk (some (n * q.emissionMs))).arrival (earliest q n) = n * q.emissionMs :=
    max_eq_left (earliest_le n)
  refine decide_eq_true ?_
  rw [Gcra.allowAt, harrival, toleranceMs_eq hburst, I64.saturatingSub, ← sub_mul]
  have hearliest : ((n : Int) - (q.burst - 1 : Nat)) * q.emissionMs ≤ earliest q n :=
    mul_le_mul_of_nonneg_right (by omega) (by omega)
  have hmin : I64.minValue ≤ earliest q n := le_trans (by decide) (earliest_nonneg n)
  exact (I64.saturate_mono hearliest).trans (I64.saturate_le hmin)

theorem charged_earliest {n : Nat} (hmax : ((n + 1 : Nat) : Int) * q.emissionMs ≤ I64.maxValue) :
    (Gcra.mk (some (n * q.emissionMs))).charged q 1 (earliest q n) =
      ⟨some ((n + 1 : Nat) * q.emissionMs)⟩ := by
  have hpos := q.emissionMs_pos
  have harrival : (Gcra.mk (some (n * q.emissionMs))).arrival (earliest q n) = n * q.emissionMs :=
    max_eq_left (earliest_le n)
  have hnonneg : 0 ≤ (n : Int) * q.emissionMs := mul_nonneg (Int.natCast_nonneg _) (by omega)
  push_cast at hmax
  rw [add_mul, one_mul] at hmax
  rw [Gcra.charged, harrival, q.costMs_one (by omega), I64.saturatingAdd,
    I64.saturate_of_mem (by unfold I64.minValue; omega) hmax]
  push_cast
  rw [add_mul, one_mul]

/-- It admits at all of them. -/
theorem admissions_earliest (retryCapMs : Int)
    (hburst : (q.burst : Int) * q.emissionMs ≤ I64.maxValue)
    {a n : Nat} (hmax : ((a + n : Nat) : Int) * q.emissionMs ≤ I64.maxValue) :
    Automaton.Meets (unitCheck q retryCapMs) (InTime q) ⟨some (a * q.emissionMs)⟩
        ((List.range' a n).map (earliest q)) ∧
      admissions q retryCapMs ⟨some (a * q.emissionMs)⟩ ((List.range' a n).map (earliest q)) =
        (List.range' a n).map (earliest q) := by
  induction n generalizing a with
  | zero => exact ⟨trivial, rfl⟩
  | succ n ih =>
    have hpos := q.emissionMs_pos
    have hnext : ((a + 1 : Nat) : Int) * q.emissionMs ≤ I64.maxValue :=
      (mul_le_mul_of_nonneg_right (by omega) (by omega)).trans hmax
    have hadmits := admits_earliest (n := a) hburst
    obtain ⟨hmeets, hrest⟩ := ih (a := a + 1) (by rwa [Nat.add_right_comm, Nat.add_assoc])
    rw [List.range'_succ, List.map_cons]
    constructor
    · refine ⟨?_, fun g hg => ?_⟩
      · rw [InTime, Gcra.arrival, Option.getD_some, max_eq_left (earliest_le a)]
        push_cast at hnext
        linarith
      · rw [unitCheck, Gcra.check_of_admits hadmits, charged_earliest hnext] at hg
        cases hg
        exact hmeets
    · rw [admissions_of_admits hadmits, charged_earliest hnext, hrest]

/-- If a period is longer than the bound allows for, a bucket that is used as early as it admits passes
the bound. -/
theorem length_within_earliest (retryCapMs : Int) (hburst : 1 ≤ q.burst)
    (hlong : q.emissionMs * (q.units + 1) < q.perMs)
    (hmax : ((q.burst + q.units + 1 : Nat) : Int) * q.emissionMs ≤ I64.maxValue) :
    let nows := (List.range' 0 (q.burst + q.units + 1)).map (earliest q)
    nows.Pairwise (· ≤ ·) ∧
      Automaton.Meets (unitCheck q retryCapMs) (InTime q) ⟨some 0⟩ nows ∧
      (within q 0 (admissions q retryCapMs ⟨some 0⟩ nows)).length = q.burst + q.units + 1 := by
  have hpos := q.emissionMs_pos
  have hb : (q.burst : Int) * q.emissionMs ≤ I64.maxValue :=
    (mul_le_mul_of_nonneg_right (by omega) (by omega)).trans hmax
  obtain ⟨hmeets, hadmissions⟩ := admissions_earliest retryCapMs hb (a := 0)
    (n := q.burst + q.units + 1) (by rwa [Nat.zero_add])
  rw [Nat.cast_zero, zero_mul] at hmeets hadmissions
  refine ⟨?_, hmeets, ?_⟩
  · exact List.pairwise_map.mpr ((List.pairwise_lt_range').imp fun h => earliest_mono h.le)
  · rw [hadmissions, within, List.filter_eq_self.mpr, List.length_map, List.length_range']
    intro now hnow
    obtain ⟨n, hn, rfl⟩ := List.mem_map.mp hnow
    rw [List.mem_range'_1] at hn
    refine decide_eq_true ⟨earliest_nonneg n, ?_⟩
    have hlast : earliest q n ≤ earliest q (q.burst + q.units) := earliest_mono (by omega)
    have heq : earliest q (q.burst + q.units) = q.emissionMs * (q.units + 1) := by
      rw [earliest, show q.burst + q.units - (q.burst - 1) = q.units + 1 by omega, mul_comm]
      push_cast
      rfl
    omega

end

/-- Whatever the bucket is and whenever it is checked, it admits in one period at most its burst and
the refill. -/
def Conserves (q : Quota) : Prop :=
  ∀ (retryCapMs : Int) (g : Gcra) (nows : List Int), nows.Pairwise (· ≤ ·) →
    Automaton.Meets (unitCheck q retryCapMs) (InTime q) g nows →
    ∀ start, (within q start (admissions q retryCapMs g nows)).length ≤ q.burst + q.units

/-- A bucket conserves if its period is not longer than what the refill takes and one interval more.
The interval is rounded down, so a period may be longer. -/
theorem conserves_iff_period_fits {q : Quota} (hburst : 1 ≤ q.burst) (hper : 1 ≤ q.perMs)
    (hmax : q.perMs ≤ I64.maxValue) :
    (q.perMs ≤ q.emissionMs * (q.units + 1) → Conserves q) ∧
    (((q.burst + q.units + 1 : Nat) : Int) * q.emissionMs ≤ I64.maxValue →
      Conserves q → q.perMs ≤ q.emissionMs * (q.units + 1)) := by
  constructor
  · intro hfits retryCapMs g nows _ hmeets start
    have hle := length_within_le start (n := 0) ((q.emissionMs_le hper).trans hmax) hfits hburst
      (fun h => absurd h (lt_irrefl 0)) hmeets
    omega
  · intro hspan hconserves
    by_contra hlong
    obtain ⟨hsorted, hmeets, hlength⟩ :=
      length_within_earliest 1 hburst (not_le.mp hlong) hspan
    have hle := hconserves 1 _ _ hsorted hmeets 0
    omega

theorem conserves_six_a_minute : Conserves ⟨3, 6, 60000⟩ :=
  (conserves_iff_period_fits (by decide) (by decide) (by decide)).1 (by decide)

/-- Three units in 5 ms make one unit a millisecond: five admissions in 5 ms, where four are the
bound. -/
theorem five_admissions_in_a_period :
    ([0, 1, 2, 3, 4] : List Int).Pairwise (· ≤ ·) ∧
      Automaton.Meets (unitCheck ⟨1, 3, 5⟩ 1000000) (InTime ⟨1, 3, 5⟩) {} [0, 1, 2, 3, 4] ∧
      ¬(within ⟨1, 3, 5⟩ 0 (admissions ⟨1, 3, 5⟩ 1000000 {} [0, 1, 2, 3, 4])).length ≤ 1 + 3 := by
  decide

end TunnelWeaver.Abuse
