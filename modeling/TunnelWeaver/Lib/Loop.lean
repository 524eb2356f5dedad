import Mathlib

/-! Loops over a list that stop at the first call that fails. A call returns the state it leaves and
whether it succeeded. -/

namespace TunnelWeaver.Loop

variable {S A : Type} {f : S → A → S × Bool} {l l' : List A} {s : S}

def forEach (f : S → A → S × Bool) : List A → S → S × Bool
  | [], s => (s, true)
  | a :: l, s => if (f s a).2 then forEach f l (f s a).1 else ((f s a).1, false)

@[simp] theorem forEach_nil : forEach f [] s = (s, true) := rfl

theorem forEach_cons {a : A} : forEach f (a :: l) s =
    if (f s a).2 then forEach f l (f s a).1 else ((f s a).1, false) := rfl

theorem forEach_append : forEach f (l ++ l') s =
    if (forEach f l s).2 then forEach f l' (forEach f l s).1 else forEach f l s := by
  induction l generalizing s with
  | nil => rfl
  | cons a l ih =>
    rw [List.cons_append, forEach_cons, forEach_cons]
    by_cases h : (f s a).2
    · rw [if_pos h, if_pos h, ih]
    · rw [if_neg h, if_neg h, if_neg Bool.false_ne_true]

/-- What relates the states around each call relates those around the loop. -/
theorem forEach_rel {R : S → S → Prop} (hrefl : ∀ s, R s s)
    (htrans : ∀ {s₁ s₂ s₃}, R s₁ s₂ → R s₂ s₃ → R s₁ s₃) (h : ∀ a ∈ l, ∀ s, R s (f s a).1) (s : S) :
    R s (forEach f l s).1 := by
  induction l generalizing s with
  | nil => exact hrefl s
  | cons a l ih =>
    obtain ⟨ha, hl⟩ := List.forall_mem_cons.mp h
    rw [forEach_cons]
    split
    · exact htrans (ha s) (ih hl _)
    · exact ha s

/-- A loop whose calls succeed while `I` holds has seen to every element. -/
theorem forEach_all {I : S → Prop} {Q : A → S → Prop} (hI : I s)
    (hcall : ∀ a ∈ l, ∀ s, I s → (f s a).2 = true ∧ I (f s a).1 ∧ Q a (f s a).1)
    (hkept : ∀ a b s, Q a s → Q a (f s b).1) :
    (forEach f l s).2 = true ∧ ∀ a ∈ l, Q a (forEach f l s).1 := by
  induction l generalizing s with
  | nil => exact ⟨rfl, fun a ha => absurd ha List.not_mem_nil⟩
  | cons a l ih =>
    obtain ⟨ha, hl⟩ := List.forall_mem_cons.mp hcall
    obtain ⟨hok, hI', hQ⟩ := ha s hI
    obtain ⟨hend, hrest⟩ := ih hI' hl
    rw [forEach_cons, if_pos hok]
    refine ⟨hend, List.forall_mem_cons.mpr ⟨?_, hrest⟩⟩
    exact forEach_rel (R := fun s s' => Q a s → Q a s') (fun _ h => h) (fun h h' hs => h' (h hs))
      (fun b _ s => hkept a b s) _ hQ

end TunnelWeaver.Loop
