import Mathlib

/-! Deterministic automata that may get stuck: a step function into `Option` and its runs over
lists of letters. -/

namespace TunnelWeaver.Automaton

variable {S T A : Type} {step : S → A → Option S} {f : T → A → Option T}

/-- The state after reading a list of letters, unless some step is stuck. -/
def run (step : S → A → Option S) (s : S) (l : List A) : Option S := l.foldlM step s

@[simp] theorem run_nil (s : S) : run step s [] = some s := rfl

@[simp] theorem run_cons (s : S) (a : A) (l : List A) :
    run step s (a :: l) = (step s a).bind (run step · l) := rfl

theorem run_append (s : S) (l l' : List A) :
    run step s (l ++ l') = (run step s l).bind (run step · l') := List.foldlM_append

theorem run_singleton (s : S) (a : A) : run step s [a] = step s a := by
  cases h : step s a <;> simp [h]

theorem run_cons_eq_some {s t : S} {a : A} {l : List A} :
    run step s (a :: l) = some t ↔ ∃ s', step s a = some s' ∧ run step s' l = some t := by
  simp [Option.bind_eq_some_iff]

theorem run_append_eq_some {s t : S} {l l' : List A} :
    run step s (l ++ l') = some t ↔ ∃ s', run step s l = some s' ∧ run step s' l' = some t := by
  simp [run_append, Option.bind_eq_some_iff]

/-- A run that succeeds succeeds on every initial part. -/
theorem run_of_isPrefix {s t : S} {l l' : List A} (hl : l' <+: l) (h : run step s l = some t) :
    ∃ s', run step s l' = some s' := by
  obtain ⟨l'', rfl⟩ := hl
  obtain ⟨s', h, _⟩ := run_append_eq_some.mp h
  exact ⟨s', h⟩

/-- Simulation: a relation each step preserves is preserved by runs. -/
theorem run_simulation {R : S → T → Prop} {p : A → Prop}
    (hstep : ∀ {s t a s'}, R s t → p a → step s a = some s' →
      ∃ t', f t a = some t' ∧ R s' t')
    {s s' : S} {t : T} {l : List A} (hp : ∀ a ∈ l, p a) (hR : R s t)
    (h : run step s l = some s') : ∃ t', run f t l = some t' ∧ R s' t' := by
  induction l generalizing s t with
  | nil => exact ⟨t, rfl, by cases h; exact hR⟩
  | cons a l ih =>
    obtain ⟨s₁, h₁, h⟩ := run_cons_eq_some.mp h
    obtain ⟨t₁, ht₁, hR₁⟩ := hstep hR (hp a (by simp)) h₁
    obtain ⟨t', ht', hR'⟩ := ih (fun a ha => hp a (by simp [ha])) hR₁ h
    exact ⟨t', run_cons_eq_some.mpr ⟨t₁, ht₁, ht'⟩, hR'⟩

/-- What each step preserves, runs preserve. -/
theorem run_invariant {I : S → Prop} {p : A → Prop}
    (hstep : ∀ {s a s'}, I s → p a → step s a = some s' → I s')
    {s s' : S} {l : List A} (hp : ∀ a ∈ l, p a) (hI : I s) (h : run step s l = some s') :
    I s' := by
  obtain ⟨_, _, hI'⟩ := run_simulation (f := fun (_ : Unit) _ => some ()) (R := fun s _ => I s)
    (fun hI hp h => ⟨(), rfl, hstep hI hp h⟩) (t := ()) hp hI h
  exact hI'

/-! ## Guarded runs -/

/-- Every step of the run over `l` from `s` meets the guard in the state it is taken in. -/
def Meets (step : S → A → Option S) (guard : S → A → Prop) : S → List A → Prop
  | _, [] => True
  | s, a :: l => guard s a ∧ ∀ s', step s a = some s' → Meets step guard s' l

theorem meets_append {guard : S → A → Prop} {s t : S} {l l' : List A}
    (h : run step s l = some t) :
    Meets step guard s (l ++ l') ↔ Meets step guard s l ∧ Meets step guard t l' := by
  induction l generalizing s with
  | nil =>
    cases h
    simp [Meets]
  | cons a l ih =>
    obtain ⟨s₁, h₁, h⟩ := run_cons_eq_some.mp h
    simp only [List.cons_append, Meets, h₁, Option.some.injEq, forall_eq']
    rw [ih h, and_assoc]

/-- A guard that holds in every state is met. -/
theorem meets_of_forall {guard : S → A → Prop} {l : List A} (h : ∀ a ∈ l, ∀ s, guard s a) (s : S) :
    Meets step guard s l := by
  induction l generalizing s with
  | nil => trivial
  | cons a l ih =>
    obtain ⟨ha, hl⟩ := List.forall_mem_cons.mp h
    exact ⟨ha s, fun s' _ => ih hl s'⟩

instance decidableMeets {guard : S → A → Prop} [∀ s a, Decidable (guard s a)] (s : S) :
    (l : List A) → Decidable (Meets step guard s l)
  | [] => isTrue trivial
  | a :: l =>
    match h : step s a with
    | none => decidable_of_iff (guard s a) (by simp [Meets, h])
    | some s' =>
      have : Decidable (Meets step guard s' l) := decidableMeets s' l
      decidable_of_iff (guard s a ∧ Meets step guard s' l) (by simp [Meets, h])

/-- What each step that meets the guard preserves, guarded runs preserve. -/
theorem run_invariant_of_meets {I : S → Prop} {guard : S → A → Prop}
    (hstep : ∀ {s a s'}, I s → guard s a → step s a = some s' → I s')
    {s s' : S} {l : List A} (hm : Meets step guard s l) (hI : I s) (h : run step s l = some s') :
    I s' := by
  induction l generalizing s with
  | nil =>
    cases h
    exact hI
  | cons a l ih =>
    obtain ⟨s₁, h₁, h⟩ := run_cons_eq_some.mp h
    exact ih (hm.2 s₁ h₁) (hstep hI hm.1 h₁) h

end TunnelWeaver.Automaton
