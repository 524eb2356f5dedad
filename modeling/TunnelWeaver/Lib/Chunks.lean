import Mathlib

/-! Splitting a list into consecutive pieces of a bounded size, as `slice::chunks` does. -/

namespace TunnelWeaver

variable {α : Type}

/-- At most `fuel` pieces of size `n` off the front of a list. -/
def chunksAux (n : Nat) : Nat → List α → List (List α)
  | 0, _ => []
  | fuel + 1, l => if l.isEmpty then [] else l.take n :: chunksAux n fuel (l.drop n)

/-- The pieces of size `n` of a list, the last one possibly shorter. -/
def chunks (n : Nat) (l : List α) : List (List α) := chunksAux n l.length l

/-- `usize::div_ceil`. -/
def divCeil (a b : Nat) : Nat := (a + b - 1) / b

theorem chunksAux_flatten {n : Nat} (hn : 0 < n) :
    ∀ {fuel : Nat} {l : List α}, l.length ≤ fuel → (chunksAux n fuel l).flatten = l
  | 0, l, h => by simp [chunksAux, List.eq_nil_of_length_eq_zero (Nat.le_zero.mp h)]
  | fuel + 1, l, h => by
    simp only [chunksAux]
    split
    · rename_i he
      simp [List.isEmpty_iff.mp he]
    · rw [List.flatten_cons, chunksAux_flatten hn (by simp; omega), List.take_append_drop]

/-- The pieces put together are the list. -/
theorem chunks_flatten {n : Nat} (hn : 0 < n) (l : List α) : (chunks n l).flatten = l :=
  chunksAux_flatten hn Nat.le.refl

theorem length_le_of_mem_chunks {n : Nat} {l c : List α} (h : c ∈ chunks n l) : c.length ≤ n := by
  have aux : ∀ {fuel : Nat} {l : List α}, c ∈ chunksAux n fuel l → c.length ≤ n := by
    intro fuel
    induction fuel with
    | zero => intro l h; simp [chunksAux] at h
    | succ fuel ih =>
      intro l h
      simp only [chunksAux] at h
      split at h
      · simp at h
      · rcases List.mem_cons.mp h with rfl | h
        · exact (List.length_take_le ..)
        · exact ih h
  exact aux h

theorem chunksAux_length {n : Nat} (hn : 0 < n) :
    ∀ {fuel : Nat} {l : List α}, l.length ≤ fuel → (chunksAux n fuel l).length = divCeil l.length n
  | 0, l, h => by
    have : n - 1 < n := by omega
    simp [chunksAux, List.eq_nil_of_length_eq_zero (Nat.le_zero.mp h), divCeil,
      Nat.div_eq_of_lt this]
  | fuel + 1, l, h => by
    simp only [chunksAux]
    split
    · rename_i he
      have : n - 1 < n := by omega
      simp [List.isEmpty_iff.mp he, divCeil, Nat.div_eq_of_lt this]
    · rename_i he
      have hpos : 0 < l.length := List.length_pos_iff.mpr (by simpa using he)
      rw [List.length_cons, chunksAux_length hn (by simp; omega), List.length_drop]
      by_cases hle : n ≤ l.length
      · have hsum : l.length + n - 1 = (l.length - n + n - 1) + n := by omega
        rw [divCeil, divCeil, hsum, Nat.add_div_right _ hn]
      · have hzero : l.length - n = 0 := by omega
        have hone : l.length + n - 1 = (l.length - 1) + n := by omega
        rw [divCeil, divCeil, hzero, hone, Nat.add_div_right _ hn,
          Nat.div_eq_of_lt (by omega), Nat.div_eq_of_lt (by omega)]

/-- There are `⌈length / n⌉` pieces. -/
theorem chunks_length {n : Nat} (hn : 0 < n) (l : List α) :
    (chunks n l).length = divCeil l.length n :=
  chunksAux_length hn Nat.le.refl

end TunnelWeaver
