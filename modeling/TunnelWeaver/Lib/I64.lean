import Mathlib

/-! Saturating arithmetic of 64-bit signed integers, over the integers. -/

namespace TunnelWeaver.I64

def maxValue : Int := 2 ^ 63 - 1

def minValue : Int := -2 ^ 63

/-- The closest 64-bit integer. -/
def saturate (x : Int) : Int := max minValue (min x maxValue)

def saturatingAdd (a b : Int) : Int := saturate (a + b)

def saturatingSub (a b : Int) : Int := saturate (a - b)

def saturatingMul (a b : Int) : Int := saturate (a * b)

variable {x y : Int}

theorem saturate_of_mem (hmin : minValue ≤ x) (hmax : x ≤ maxValue) : saturate x = x := by
  rw [saturate, min_eq_left hmax, max_eq_right hmin]

theorem saturate_le_max (x : Int) : saturate x ≤ maxValue :=
  max_le (by decide) (min_le_right _ _)

theorem min_le_saturate (x : Int) : minValue ≤ saturate x := le_max_left _ _

/-- From above, saturation only makes a number smaller. -/
theorem saturate_le (h : minValue ≤ x) : saturate x ≤ x := max_le h (min_le_left _ _)

theorem saturate_le_of_pos (h : 0 < saturate x) : saturate x ≤ x := by
  have hmin : minValue < max minValue (min x maxValue) := lt_trans (by decide) h
  rw [saturate, max_eq_right (lt_max_iff.mp hmin |>.resolve_left (lt_irrefl _)).le]
  exact min_le_left _ _

/-- From below, saturation only makes a number larger. -/
theorem le_saturate (h : x ≤ maxValue) : x ≤ saturate x := by
  rw [saturate, min_eq_left h]
  exact le_max_right _ _

theorem saturate_mono (h : x ≤ y) : saturate x ≤ saturate y :=
  max_le_max le_rfl (min_le_min h le_rfl)

theorem saturate_nonneg (h : 0 ≤ x) : 0 ≤ saturate x :=
  le_max_of_le_right (le_min h (by decide))

/-- `as i64` of an unsigned number. -/
def ofU64 (n : UInt64) : Int := (n.toNat : Int).bmod (2 ^ 64)

/-- What arithmetic without overflow checks gives. -/
def wrap (x : Int) : Int := (x + 2 ^ 63) % 2 ^ 64 - 2 ^ 63

def wrappingSub (a b : Int) : Int := wrap (a - b)

theorem wrap_of_mem (hmin : minValue ≤ x) (hmax : x ≤ maxValue) : wrap x = x := by
  unfold minValue at hmin
  unfold maxValue at hmax
  rw [wrap, Int.emod_eq_of_lt (by omega) (by omega)]
  omega

/-- A saturated number is at most a 64-bit integer when the exact one is. -/
theorem saturate_le_iff (hmin : minValue ≤ y) (hmax : y < maxValue) : saturate x ≤ y ↔ x ≤ y := by
  constructor
  · intro h
    by_contra hlt
    have hmono := saturate_mono (x := y + 1) (y := x) (by omega)
    rw [saturate_of_mem (by omega) (by omega)] at hmono
    omega
  · intro h
    exact (saturate_mono h).trans_eq (saturate_of_mem hmin hmax.le)

end TunnelWeaver.I64
