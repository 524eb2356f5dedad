import TunnelWeaver.Lib.Automaton
import TunnelWeaver.Lib.I64

/-! The limiter of the abuse engine (`gcra.rs`): a token bucket kept as one theoretical arrival
time. Instants are milliseconds since 1970. -/

namespace TunnelWeaver.Abuse

open I64 (saturatingAdd saturatingMul saturatingSub wrappingSub)

/-- A bucket's capacity and its refill of `units` every `perMs`. -/
structure Quota where
  burst : Nat
  units : Nat
  perMs : Int
  deriving DecidableEq

inductive Outcome where
  | admitted
  | throttled
  deriving DecidableEq

structure Charge where
  outcome : Outcome
  /-- Milliseconds to wait before retrying; 0 when admitted. -/
  retryAfterMs : Int
  deriving DecidableEq

/-- A bucket; without an arrival time it is full. -/
structure Gcra where
  tatMs : Option Int := none
  deriving DecidableEq

namespace Quota
variable (q : Quota)

/-- The time to accrue one unit. -/
def emissionMs : Int := max (q.perMs.tdiv (max q.units 1 : Nat)) 1

def toleranceMs : Int := saturatingMul (q.burst - 1 : Nat) q.emissionMs

def costMs (cost : Nat) : Int := saturatingMul cost q.emissionMs

theorem emissionMs_pos : 1 ≤ q.emissionMs := le_max_right _ _

theorem toleranceMs_nonneg : 0 ≤ q.toleranceMs :=
  I64.saturate_nonneg (mul_nonneg (Int.natCast_nonneg _) (by have := q.emissionMs_pos; omega))

theorem toleranceMs_le : q.toleranceMs ≤ (q.burst - 1 : Nat) * q.emissionMs := by
  have hnonneg : 0 ≤ ((q.burst - 1 : Nat) : Int) * q.emissionMs :=
    mul_nonneg (Int.natCast_nonneg _) (by have := q.emissionMs_pos; omega)
  exact I64.saturate_le (le_trans (by decide) hnonneg)

theorem emissionMs_le (h : 1 ≤ q.perMs) : q.emissionMs ≤ q.perMs := by
  refine max_le ?_ h
  rw [Int.tdiv_eq_ediv_of_nonneg (by omega)]
  exact Int.ediv_le_self _ (by omega)

theorem costMs_one_le : q.costMs 1 ≤ q.emissionMs := by
  have hmin : I64.minValue ≤ ((1 : Nat) : Int) * q.emissionMs := by
    rw [Nat.cast_one, one_mul]
    exact le_trans (by decide) q.emissionMs_pos
  exact (I64.saturate_le hmin).trans_eq (by rw [Nat.cast_one, one_mul])

theorem costMs_one (h : q.emissionMs ≤ I64.maxValue) : q.costMs 1 = q.emissionMs := by
  rw [costMs, saturatingMul, Nat.cast_one, one_mul]
  exact I64.saturate_of_mem (le_trans (by decide) q.emissionMs_pos) h

end Quota

namespace Gcra
variable (g : Gcra) (q : Quota)

/-- The arrival time as a check finds it. -/
def arrival (now : Int) : Int := max (g.tatMs.getD now) now

/-- From when on the bucket admits. -/
def allowAt (now : Int) : Int := saturatingSub (g.arrival now) q.toleranceMs

def admits (now : Int) : Bool := g.allowAt q now ≤ now

/-- The bucket after an admission. -/
def charged (cost : Nat) (now : Int) : Gcra := ⟨saturatingAdd (g.arrival now) (q.costMs cost)⟩

/-- The delay of a refusal. -/
def retryAfter (now retryCapMs : Int) : Int :=
  max 1 (min (wrappingSub (g.allowAt q now) now) (max retryCapMs 1))

/-- Charge `cost` units. -/
def check (cost : Nat) (now retryCapMs : Int) : Gcra × Charge :=
  if g.admits q now then (g.charged q cost now, ⟨.admitted, 0⟩)
  else (g, ⟨.throttled, g.retryAfter q now retryCapMs⟩)

variable {g q} {cost : Nat} {now retryCapMs : Int}

theorem le_arrival : now ≤ g.arrival now := le_max_right _ _

theorem check_of_admits (h : g.admits q now = true) :
    g.check q cost now retryCapMs = (g.charged q cost now, ⟨.admitted, 0⟩) := if_pos h

theorem check_of_refuses (h : g.admits q now = false) : g.check q cost now retryCapMs =
    (g, ⟨.throttled, g.retryAfter q now retryCapMs⟩) :=
  if_neg (by simp [h])

/-- What is before an instant, shifted back by the tolerance, is before it. -/
theorem saturatingSub_toleranceMs_le {t x : Int} (ht : 0 ≤ t) (hx : x ≤ t) :
    saturatingSub x q.toleranceMs ≤ t := by
  have htolerance := q.toleranceMs_nonneg
  have hmin : I64.minValue ≤ t := le_trans (by decide) ht
  exact (I64.saturate_mono (by omega : x - q.toleranceMs ≤ t)).trans (I64.saturate_le hmin)

/-- When a bucket admits depends on its arrival time alone. -/
theorem admits_iff {t : Int} (ht : 0 ≤ t) :
    g.admits q t = true ↔ ∀ tat ∈ g.tatMs, saturatingSub tat q.toleranceMs ≤ t := by
  have hadmits : g.admits q t = true ↔ g.allowAt q t ≤ t := decide_eq_true_iff
  rw [hadmits]
  cases htat : g.tatMs with
  | none => simpa [allowAt, arrival, htat] using saturatingSub_toleranceMs_le ht le_rfl
  | some tat =>
    have harrival : g.arrival t = max tat t := by rw [arrival, htat, Option.getD_some]
    rw [allowAt, harrival]
    constructor
    · intro h _ hx
      cases hx
      exact (I64.saturate_mono (by have := le_max_left tat t; omega)).trans h
    · intro h
      rcases le_total tat t with hle | hle
      · rw [max_eq_right hle]
        exact saturatingSub_toleranceMs_le ht le_rfl
      · rw [max_eq_left hle]
        exact h tat rfl

theorem admits_of_tatMs_eq_none (hnow : 0 ≤ now) (h : g.tatMs = none) : g.admits q now = true := by
  rw [admits_iff hnow, h]
  exact fun _ htat => by cases htat

/-- A bucket that refuses is ahead. -/
theorem refuses_iff (hnow : 0 ≤ now) : g.admits q now = false ↔
    ∃ tat, g.tatMs = some tat ∧ now < saturatingSub tat q.toleranceMs := by
  rw [← Bool.not_eq_true, admits_iff hnow]
  simp

theorem allowAt_of_refuses (hnow : 0 ≤ now) (h : g.admits q now = false) {tat : Int}
    (htat : g.tatMs = some tat) : g.allowAt q now = saturatingSub tat q.toleranceMs := by
  obtain ⟨_, hsome, hlt⟩ := (refuses_iff hnow).mp h
  obtain rfl := Option.some.inj (htat.symm.trans hsome)
  have hle : now ≤ tat := by
    by_contra hlt'
    exact absurd (saturatingSub_toleranceMs_le (q := q) hnow (not_le.mp hlt').le) (not_le.mpr hlt)
  rw [allowAt, arrival, htat, Option.getD_some, max_eq_left hle]

/-- The delay of a refusal that the cap does not cut is what is missing. -/
theorem retryAfter_eq (hnow : 0 ≤ now) (h : g.admits q now = false)
    (hcap : g.allowAt q now - now ≤ max retryCapMs 1) :
    g.retryAfter q now retryCapMs = g.allowAt q now - now := by
  have hlt : now < g.allowAt q now := not_le.mp (decide_eq_false_iff_not.mp h)
  have hmax : g.allowAt q now ≤ I64.maxValue := I64.saturate_le_max _
  have hwrap : wrappingSub (g.allowAt q now) now = g.allowAt q now - now :=
    I64.wrap_of_mem (le_trans (by decide) (by omega : 0 ≤ g.allowAt q now - now)) (by omega)
  rw [retryAfter, hwrap, min_eq_left hcap, max_eq_right (by omega)]

/-- A bucket that admits is not ahead by more than its tolerance. -/
theorem arrival_le_of_admits (hmax : g.arrival now ≤ I64.maxValue) (h : g.admits q now = true) :
    g.arrival now ≤ now + (q.burst - 1 : Nat) * q.emissionMs := by
  have hallow : g.allowAt q now ≤ now := of_decide_eq_true h
  have htolerance := q.toleranceMs_nonneg
  have hle : g.arrival now - q.toleranceMs ≤ now :=
    (I64.le_saturate (by omega : g.arrival now - q.toleranceMs ≤ I64.maxValue)).trans hallow
  have := q.toleranceMs_le
  omega

theorem le_charged (hnow : 0 ≤ now) (hmax : now ≤ I64.maxValue) :
    now ≤ saturatingAdd (g.arrival now) (q.costMs cost) := by
  have hcost : 0 ≤ q.costMs cost :=
    I64.saturate_nonneg (mul_nonneg (Int.natCast_nonneg _) (by have := q.emissionMs_pos; omega))
  have hle : now ≤ g.arrival now + q.costMs cost := by
    have hle : now ≤ g.arrival now := g.le_arrival
    omega
  have hmono := I64.saturate_mono hle
  rwa [I64.saturate_of_mem (le_trans (by decide) hnow) hmax] at hmono

/-- After an admission the bucket admits again at an instant that its new arrival time allows. -/
theorem charged_admits_iff (hnow : 0 ≤ now) (hmax : now ≤ I64.maxValue) {t : Int} (ht : 0 ≤ t) :
    (g.charged q cost now).admits q t = true ↔ (g.charged q cost now).allowAt q now ≤ t := by
  rw [admits_iff ht, allowAt, arrival, charged, Option.getD_some, max_eq_left (le_charged hnow hmax)]
  simp

/-- A check leaves an arrival time. -/
theorem check_tatMs (hnow : 0 ≤ now) :
    ∃ tat, (g.check q cost now retryCapMs).1 = ⟨some tat⟩ := by
  cases h : g.admits q now with
  | true =>
    rw [check_of_admits h]
    exact ⟨_, rfl⟩
  | false =>
    obtain ⟨tat, htat, -⟩ := (refuses_iff hnow).mp h
    rw [check_of_refuses h]
    exact ⟨tat, congrArg Gcra.mk htat⟩

end Gcra

end TunnelWeaver.Abuse
