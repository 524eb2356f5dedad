import Mathlib

/-! Transactions on a store of type `S`: code that calls the store, of which every call may fail.
What it wrote is seen once it commits, and only then. -/

namespace TunnelWeaver.Transaction

variable {E S α β : Type}

/-- Code inside a transaction. The `n`-th call fails when `fails n` says so; the state is what the
transaction sees, and the number of its next call. -/
abbrev Body (E S : Type) := ReaderT (Nat → Bool) (StateT (S × Nat) (Except E))

/-- A call, which fails with `e` or does `f`. -/
def call (e : E) (f : StateT S (Except E) α) : Body E S α := fun fails s =>
  if fails s.2 then .error e else (f s.1).map fun r => (r.1, r.2, s.2 + 1)

/-- How the code of a transaction ends: an early return drops the transaction. -/
inductive Ending (α : Type)
  | commit (value : α)
  | drop (value : α)

/-- Begins the transaction, runs its code, and commits; the store is left as it was unless the
commit succeeds. -/
def run (e : E) (fails : Nat → Bool) (body : Body E S (Ending α)) (s : S) : Except E α × S :=
  if fails 0 then (.error e, s)
  else match body fails (s, 1) with
    | .error e => (.error e, s)
    | .ok (.drop value, _) => (.ok value, s)
    | .ok (.commit value, s', n) => if fails n then (.error e, s) else (.ok value, s')

/-- The code does what `f` does, unless a call fails. -/
def Denotes (e : E) (body : Body E S α) (f : StateT S (Except E) α) : Prop :=
  ∀ fails s n, body fails (s, n) = .error e ∧ (∃ i, fails i = true) ∨
    ∃ m, body fails (s, n) = (f s).map fun r => (r.1, r.2, m)

variable {e : E} {body : Body E S α} {f : StateT S (Except E) α}

theorem denotes_pure (a : α) : Denotes e (pure a : Body E S α) (pure a) :=
  fun _ _ n => .inr ⟨n, rfl⟩

theorem denotes_call (f : StateT S (Except E) α) : Denotes e (call e f) f := by
  intro fails s n
  rw [call]
  split
  · rename_i h
    exact .inl ⟨rfl, n, h⟩
  · exact .inr ⟨n + 1, rfl⟩

theorem denotes_bind {k : α → Body E S β} {g : α → StateT S (Except E) β} (h : Denotes e body f)
    (hk : ∀ a, Denotes e (k a) (g a)) : Denotes e (body >>= k) (f >>= g) := by
  intro fails s n
  have hbody : (body >>= k) fails (s, n) =
      (body fails (s, n) >>= fun r => k r.1 fails r.2) := rfl
  have hf : (f >>= g) s = (f s >>= fun r => g r.1 r.2) := rfl
  rw [hbody, hf]
  obtain ⟨herror, hfail⟩ | ⟨m, hok⟩ := h fails s n
  · rw [herror]
    exact .inl ⟨rfl, hfail⟩
  · rw [hok]
    cases hr : f s with
    | error x => exact .inr ⟨m, rfl⟩
    | ok r => exact hk r.1 fails r.2 m

/-- What a transaction without failures does. -/
def meaning (f : StateT S (Except E) (Ending α)) (s : S) : Except E α × S :=
  match f s with
  | .error e => (.error e, s)
  | .ok (.drop value, _) => (.ok value, s)
  | .ok (.commit value, s') => (.ok value, s')

/-- A transaction does what its code means, or fails and leaves the store as it was. -/
theorem run_cases {body : Body E S (Ending α)} {f : StateT S (Except E) (Ending α)}
    (h : Denotes e body f) (fails : Nat → Bool) (s : S) :
    run e fails body s = meaning f s ∨ run e fails body s = (.error e, s) ∧ ∃ i, fails i = true := by
  rw [run]
  split
  · rename_i hfail
    exact .inr ⟨rfl, 0, hfail⟩
  · obtain ⟨herror, hfail⟩ | ⟨m, hok⟩ := h fails s 1
    · rw [herror]
      exact .inr ⟨rfl, hfail⟩
    · rw [hok, meaning]
      cases hr : f s with
      | error x => exact .inl rfl
      | ok r =>
        obtain ⟨ending, s'⟩ := r
        cases ending with
        | drop value => exact .inl rfl
        | commit value =>
          change ite _ _ _ = _ ∨ ite _ _ _ = _ ∧ _
          split
          · rename_i hfail
            exact .inr ⟨rfl, m, hfail⟩
          · exact .inl rfl

/-- Without failures it does what its code means. -/
theorem run_eq {body : Body E S (Ending α)} {f : StateT S (Except E) (Ending α)}
    (h : Denotes e body f) {fails : Nat → Bool} (hfails : ∀ i, fails i = false) (s : S) :
    run e fails body s = meaning f s := by
  obtain heq | ⟨-, i, hi⟩ := run_cases h fails s
  · exact heq
  · rw [hfails i] at hi
    cases hi

end TunnelWeaver.Transaction
