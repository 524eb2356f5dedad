import Mathlib.Data.List.Basic
import Mathlib.Data.Nat.Basic

/-! Bit vectors as sequences of octets, and masks of their first bits. -/

namespace TunnelWeaver.Bits

/-- The `n` octets of a bit vector, the most significant one first. -/
def octets {w : Nat} (n : Nat) (x : BitVec w) : List UInt8 :=
  (List.range n).map fun i => ⟨(x >>> (8 * (n - 1 - i))).setWidth 8⟩

variable {w n : Nat} {x y : BitVec w}

@[simp] theorem length_octets : (octets n x).length = n := by simp [octets]

/-- The octets determine every bit. -/
theorem octets_injective (hw : w ≤ 8 * n) (h : octets n x = octets n y) : x = y := by
  apply BitVec.eq_of_getLsbD_eq
  intro i hi
  have hoctet : (x >>> (8 * (n - 1 - (n - 1 - i / 8)))).setWidth 8 =
      (y >>> (8 * (n - 1 - (n - 1 - i / 8)))).setWidth 8 := by
    have hget := List.map_inj_left.mp h (n - 1 - i / 8) (List.mem_range.mpr (by omega))
    exact UInt8.ofBitVec.inj hget
  have hbit := congrArg (fun z => z.getLsbD (i % 8)) hoctet
  have hindex : 8 * (n - 1 - (n - 1 - i / 8)) + i % 8 = i := by omega
  simpa [BitVec.getLsbD_setWidth, hindex, Nat.mod_lt] using hbit

/-- What is left of the first bits when `k` bits are cleared. -/
def clearLow (k : Nat) (x : BitVec w) : BitVec w := x &&& (BitVec.allOnes w <<< k)

theorem clearLow_eq_iff {k : Nat} : clearLow k x = clearLow k y ↔ x >>> k = y >>> k := by
  constructor
  · intro h
    apply BitVec.eq_of_getLsbD_eq
    intro i hi
    have hbit := congrArg (fun z => z.getLsbD (k + i)) h
    rw [BitVec.getLsbD_ushiftRight, BitVec.getLsbD_ushiftRight]
    by_cases hw : k + i < w
    · have hk : ¬k + i < k := by omega
      simpa [clearLow, hw, hk] using hbit
    · rw [BitVec.getLsbD_of_ge _ _ (not_lt.mp hw), BitVec.getLsbD_of_ge _ _ (not_lt.mp hw)]
  · intro h
    apply BitVec.eq_of_getLsbD_eq
    intro i hi
    by_cases hk : k ≤ i
    · have hbit := congrArg (fun z => z.getLsbD (i - k)) h
      simp only [BitVec.getLsbD_ushiftRight, Nat.add_sub_cancel' hk] at hbit
      simp [clearLow, hbit]
    · simp [clearLow, not_le.mp hk]

end TunnelWeaver.Bits
