import Mathlib

/-! The extent of a set in a linear order: its least and its greatest element, if it has any. -/

namespace TunnelWeaver.Extent

variable {α : Type} [LinearOrder α]

def IsExtent (s : Set α) : Option (α × α) → Prop
  | none => s = ∅
  | some (a, b) => IsLeast s a ∧ IsGreatest s b

/-- The extent of the elements of a list. -/
def extent (l : List α) : Option (α × α) :=
  l.min?.bind fun first => l.max?.map fun last => (first, last)

variable {s t : Set α} {e : Option (α × α)}

theorem isExtent_extent (l : List α) : IsExtent {x | x ∈ l} (extent l) := by
  cases hmin : l.min? with
  | none =>
    rw [extent, hmin]
    exact Set.eq_empty_of_forall_notMem fun x hx => by
      rw [List.min?_eq_none_iff.mp hmin] at hx
      cases hx
  | some a =>
    cases hmax : l.max? with
    | none =>
      rw [List.max?_eq_none_iff.mp hmax] at hmin
      cases hmin
    | some b =>
      rw [extent, hmin, hmax]
      exact ⟨List.min?_eq_some_iff.mp hmin, List.max?_eq_some_iff.mp hmax⟩

/-- A set that is spanned by elements of it has their extent. -/
theorem IsExtent.of_spanned (h : IsExtent t e) (hsub : t ⊆ s)
    (hspan : ∀ x ∈ s, ∃ a ∈ t, ∃ b ∈ t, a ≤ x ∧ x ≤ b) : IsExtent s e := by
  cases e with
  | none =>
    refine Set.eq_empty_of_forall_notMem fun x hx => ?_
    obtain ⟨a, ha, -⟩ := hspan x hx
    rw [show t = ∅ from h] at ha
    exact ha
  | some e =>
    obtain ⟨hleast, hgreatest⟩ := h
    refine ⟨⟨hsub hleast.1, fun x hx => ?_⟩, hsub hgreatest.1, fun x hx => ?_⟩
    · obtain ⟨a, ha, b, -, hax, -⟩ := hspan x hx
      exact (hleast.2 ha).trans hax
    · obtain ⟨a, -, b, hb, -, hxb⟩ := hspan x hx
      exact hxb.trans (hgreatest.2 hb)

theorem exists_isLeast (hfin : s.Finite) (hne : s.Nonempty) : ∃ a, IsLeast s a := by
  obtain ⟨a, ha, hmin⟩ := Set.exists_min_image s id hfin hne
  exact ⟨a, ha, hmin⟩

theorem exists_isGreatest (hfin : s.Finite) (hne : s.Nonempty) : ∃ a, IsGreatest s a := by
  obtain ⟨a, ha, hmax⟩ := Set.exists_max_image s id hfin hne
  exact ⟨a, ha, hmax⟩

/-! ## The greatest element -/

structure IsTop (s : Set α) (top : Option α) : Prop where
  empty : top = none → s = ∅
  greatest : ∀ {x}, top = some x → IsGreatest s x

variable {a b : Option α}

theorem IsTop.eq_some_iff {x : α} (h : IsTop s a) : a = some x ↔ IsGreatest s x := by
  refine ⟨h.greatest, fun hx => ?_⟩
  cases a with
  | none =>
    rw [h.empty rfl] at hx
    exact absurd hx.1 (Set.notMem_empty x)
  | some y => rw [(h.greatest rfl).unique hx]

theorem IsTop.union (h : IsTop s a) (h' : IsTop t b) : IsTop (s ∪ t) (Option.merge max a b) := by
  cases a with
  | none =>
    rw [h.empty rfl, Set.empty_union]
    cases b <;> exact h'
  | some x =>
    cases b with
    | none =>
      rw [h'.empty rfl, Set.union_empty]
      exact h
    | some y =>
      refine ⟨fun hnone => (by cases hnone), fun hmax => ?_⟩
      rw [← Option.some.inj hmax]
      exact (h.greatest rfl).union (h'.greatest rfl)

/-- A window onto `t` and what of it is in the window: the extent of the one is that of the other
just when all of `t` is in the window and has the ends of what is asked for. -/
theorem IsExtent.iff (window : Set α) [window.OrdConnected] (h : IsExtent t e) (hfin : s.Finite)
    (hwindow : s ⊆ window) (hin : ∀ x ∈ t, x ∈ window → x ∈ s) :
    IsExtent s e ↔ t ⊆ window ∧ ∀ x, IsLeast s x ∨ IsGreatest s x → x ∈ t := by
  constructor
  · intro hs
    cases e with
    | none =>
      rw [show t = ∅ from h, show s = ∅ from hs]
      exact ⟨Set.empty_subset _, fun x hx => hx.elim (·.1) (·.1)⟩
    | some e =>
      refine ⟨fun x hx => ?_, fun x hx => ?_⟩
      · exact Set.OrdConnected.out ‹_› (hwindow hs.1.1) (hwindow hs.2.1) ⟨h.1.2 hx, h.2.2 hx⟩
      · obtain hx | hx := hx
        · rw [hx.unique hs.1]
          exact h.1.1
        · rw [hx.unique hs.2]
          exact h.2.1
  · rintro ⟨hsub, hends⟩
    have hts : t ⊆ s := fun x hx => hin x hx (hsub hx)
    cases e with
    | none =>
      refine Set.not_nonempty_iff_eq_empty.mp fun hne => ?_
      obtain ⟨a, ha⟩ := exists_isLeast hfin hne
      have hmem := hends a (.inl ha)
      rw [show t = ∅ from h] at hmem
      exact hmem
    | some e =>
      have hne : s.Nonempty := ⟨e.1, hts h.1.1⟩
      obtain ⟨a, ha⟩ := exists_isLeast hfin hne
      obtain ⟨b, hb⟩ := exists_isGreatest hfin hne
      refine ⟨⟨hts h.1.1, fun x hx => ?_⟩, hts h.2.1, fun x hx => ?_⟩
      · exact (h.1.2 (hends a (.inl ha))).trans (ha.2 hx)
      · exact (hb.2 hx).trans (h.2.2 (hends b (.inr hb)))

end TunnelWeaver.Extent
