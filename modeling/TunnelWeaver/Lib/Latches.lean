import TunnelWeaver.Lib.Map

/-! One-shot latches under names. A name has at most one latch at a time; to clear the name is to
take its latch out and open it, and an open latch never closes. Whoever took the latch of a name
waits at it no longer than the name is marked. -/

namespace TunnelWeaver

/-- The latches under their names, and which of all that were ever made are open. -/
structure Latches (K : Type) [DecidableEq K] where
  table : Map K Nat
  opened : List Bool
  closed : ∀ {k w}, table.lookup k = some w → opened[w]? = some false
  inj : ∀ {k k' w}, table.lookup k = some w → table.lookup k' = some w → k = k'

namespace Latches

variable {K : Type} [DecidableEq K]

def empty : Latches K where
  table := ∅
  opened := []
  closed h := by simp at h
  inj h := by simp at h

def isMarked (s : Latches K) (k : K) : Bool := (s.table.lookup k).isSome

def isOpen (s : Latches K) (w : Nat) : Bool := s.opened[w]? == some true

theorem lt_of_lookup {s : Latches K} {k : K} {w : Nat} (h : s.table.lookup k = some w) :
    w < s.opened.length :=
  (List.getElem?_eq_some_iff.mp (s.closed h)).1

/-- Makes a latch for the name, unless it has one. -/
def mark (s : Latches K) (k : K) : Latches K :=
  if hk : s.isMarked k then s else
    { table := s.table.insert k s.opened.length
      opened := s.opened ++ [false]
      closed := by
        intro k' w h
        rw [Map.lookup_insert_ite] at h
        split at h
        · cases h
          rw [List.getElem?_append_right le_rfl, Nat.sub_self, List.getElem?_cons_zero]
        · rw [List.getElem?_append_left (lt_of_lookup h)]
          exact s.closed h
      inj := by
        intro k₁ k₂ w h₁ h₂
        rw [Map.lookup_insert_ite] at h₁ h₂
        split at h₁ <;> split at h₂
        · exact ‹k₁ = k›.trans ‹k₂ = k›.symm
        · cases h₁
          exact absurd (lt_of_lookup h₂) (lt_irrefl _)
        · cases h₂
          exact absurd (lt_of_lookup h₁) (lt_irrefl _)
        · exact s.inj h₁ h₂ }

/-- Takes the latch of the name out, if it has one, and opens it. -/
def clear (s : Latches K) (k : K) : Latches K where
  table := s.table.erase k
  opened := (s.table.lookup k).elim s.opened fun w => s.opened.set w true
  closed := by
    intro k' w h
    rw [Map.lookup_erase_ite] at h
    split at h
    · cases h
    · cases hk : s.table.lookup k with
      | none => exact s.closed h
      | some w' =>
        have hne : w' ≠ w := fun heq => ‹¬k' = k› (s.inj h (heq ▸ hk))
        rw [Option.elim_some, List.getElem?_set_ne hne]
        exact s.closed h
  inj := by
    intro k₁ k₂ w h₁ h₂
    rw [Map.lookup_erase_ite] at h₁ h₂
    split at h₁
    · cases h₁
    · split at h₂
      · cases h₂
      · exact s.inj h₁ h₂

variable {s : Latches K} {k k' : K} {w : Nat}

theorem isOpen_mark (h : s.isOpen w = true) : (s.mark k).isOpen w = true := by
  unfold mark
  split
  · exact h
  · simp only [isOpen, beq_iff_eq] at h ⊢
    rw [List.getElem?_append_left (List.getElem?_eq_some_iff.mp h).1]
    exact h

theorem isOpen_clear (h : s.isOpen w = true) : (s.clear k).isOpen w = true := by
  simp only [isOpen, clear, beq_iff_eq] at h ⊢
  cases hk : s.table.lookup k with
  | none => exact h
  | some w' =>
    rw [Option.elim_some, List.getElem?_set]
    split
    · subst w'
      rw [if_pos (List.getElem?_eq_some_iff.mp h).1]
    · exact h

theorem lookup_mark (h : s.table.lookup k' = some w) : (s.mark k).table.lookup k' = some w := by
  unfold mark
  split
  · exact h
  · rename_i hk
    have hne : k' ≠ k := by
      rintro rfl
      exact hk (by rw [isMarked, h]; rfl)
    rw [Map.lookup_insert_ite, if_neg hne]
    exact h

theorem isMarked_mark : (s.mark k).isMarked k = true := by
  unfold mark
  split
  · assumption
  · rw [isMarked, Map.lookup_insert_ite, if_pos rfl]
    rfl

theorem isMarked_clear : (s.clear k).isMarked k = false := by
  rw [isMarked, clear, Map.lookup_erase_ite, if_pos rfl]
  rfl

/-- The latch was taken under the name: it is open, or still there. -/
def Taken (s : Latches K) (k : K) (w : Nat) : Prop := s.isOpen w = true ∨ s.table.lookup k = some w

theorem Taken.mark (h : s.Taken k w) : (s.mark k').Taken k w := h.imp isOpen_mark lookup_mark

theorem Taken.clear (h : s.Taken k w) : (s.clear k').Taken k w := by
  obtain h | h := h
  · exact .inl (isOpen_clear h)
  · by_cases hk : k' = k
    · subst hk
      refine .inl ?_
      simp only [isOpen, Latches.clear, h, Option.elim_some]
      rw [List.getElem?_set_self (lt_of_lookup h)]
      rfl
    · refine .inr ?_
      rw [Latches.clear, Map.lookup_erase_ite, if_neg (Ne.symm hk)]
      exact h

/-- No wake-up is lost: a latch that was taken under a name is shut only while the name has it. -/
theorem Taken.isOpen_eq_false_iff (h : s.Taken k w) :
    s.isOpen w = false ↔ s.table.lookup k = some w := by
  refine ⟨fun hshut => h.resolve_left fun hopen => ?_, fun hk => ?_⟩
  · rw [hshut] at hopen
    cases hopen
  · rw [isOpen, s.closed hk]
    rfl

end Latches

end TunnelWeaver
