import TunnelWeaver.Lib.Map

/-! Concurrent calls over shared data guarded by locks. A call is a program of acquire, release and
computation steps; calls interleave at every step. Calls that take their locks in the order of some
rank never wait for each other in a circle. -/

namespace TunnelWeaver.Locks

inductive Mode where
  | shared
  | exclusive
  deriving DecidableEq

/-- What is left of a call. A computation updates the data and goes on as the data before it says. -/
inductive Prog (L D : Type) where
  | done
  | acquire (l : L) (m : Mode) (next : Prog L D)
  | release (l : L) (next : Prog L D)
  | compute (update : D → D) (next : D → Prog L D)

structure Thread (C L D : Type) where
  call : C
  held : List (L × Mode)
  prog : Prog L D

/-- The lock the next step takes. -/
def Thread.wants {C L D : Type} (x : Thread C L D) : Option L :=
  match x.prog with
  | .acquire l _ _ => some l
  | _ => none

structure World (C L D : Type) where
  data : D
  threads : Map Nat (Thread C L D) := ∅

inductive Action (C : Type) where
  | call (t : Nat) (c : C)
  | go (t : Nat)

variable {C L D : Type}

/-- The data after a call that runs alone. -/
def Prog.exec : Prog L D → D → D
  | .done, d => d
  | .acquire _ _ next, d | .release _ next, d => next.exec d
  | .compute update next, d => (next d).exec (update d)

/-- Every lock is taken while holding only locks `edge` allows below it. -/
def Prog.Nests (edge : L → L → Prop) [DecidableEq L] : Prog L D → List (L × Mode) → Prop
  | .done, _ => True
  | .acquire l m next, held => (∀ h ∈ held, edge h.1 l) ∧ next.Nests edge ((l, m) :: held)
  | .release l next, held => next.Nests edge (held.filter (·.1 ≠ l))
  | .compute _ next, held => ∀ d, (next d).Nests edge held

theorem Prog.nests_done {edge : L → L → Prop} [DecidableEq L] {held : List (L × Mode)} :
    (Prog.done : Prog L D).Nests edge held := trivial

theorem Prog.nests_release {edge : L → L → Prop} [DecidableEq L] {held : List (L × Mode)} {l : L}
    {next : Prog L D} (h : next.Nests edge (held.filter (·.1 ≠ l))) :
    (Prog.release l next).Nests edge held := h

namespace World

/-- No thread holds the lock in a way that excludes `m`. -/
def free [DecidableEq L] (w : World C L D) (l : L) (m : Mode) : Bool :=
  w.threads.entries.all fun e => e.2.held.all fun h =>
    decide (h.1 = l → m = .shared ∧ h.2 = .shared)

/-- One step of a thread, unless it has to wait. -/
def advance [DecidableEq L] (w : World C L D) (x : Thread C L D) : Option (D × Thread C L D) :=
  match x.prog with
  | .done => none
  | .acquire l m next =>
    if w.free l m then some (w.data, { x with held := (l, m) :: x.held, prog := next }) else none
  | .release l next =>
    some (w.data, { x with held := x.held.filter (·.1 ≠ l), prog := next })
  | .compute update next => some (update w.data, { x with prog := next w.data })

/-- A call starts on a thread of its own, or takes a step. -/
def step [DecidableEq L] (program : C → Prog L D) (w : World C L D) : Action C → Option (World C L D)
  | .call t c =>
    if (w.threads.lookup t).isSome then none
    else some { w with threads := w.threads.insert t ⟨c, [], program c⟩ }
  | .go t =>
    match w.threads.lookup t with
    | none => none
    | some x => (w.advance x).map fun r => ⟨r.1, w.threads.insert t r.2⟩

/-- The next step of thread `t` is to take `l`. -/
def Waits (w : World C L D) (t : Nat) (l : L) : Prop :=
  ∃ x, w.threads.lookup t = some x ∧ x.wants = some l

def Holds (w : World C L D) (t : Nat) (l : L) : Prop :=
  ∃ x, w.threads.lookup t = some x ∧ l ∈ x.held.map (·.1)

/-- Thread `t` waits for a lock that `u` holds. -/
def WaitsOn (w : World C L D) (t u : Nat) : Prop := ∃ l, w.Waits t l ∧ w.Holds u l

instance [DecidableEq L] (w : World C L D) (t u : Nat) : Decidable (w.WaitsOn t u) :=
  decidable_of_iff ((w.threads.lookup t).any fun x => (w.threads.lookup u).any fun y =>
      x.wants.any fun l => decide (l ∈ y.held.map (·.1))) <| by
    simp only [Option.any_eq_true, decide_eq_true_eq, WaitsOn, Waits, Holds]
    constructor
    · rintro ⟨x, hx, y, hy, l, hl, hm⟩
      exact ⟨l, ⟨x, hx, hl⟩, y, hy, hm⟩
    · rintro ⟨l, ⟨x, hx, hl⟩, y, hy, hm⟩
      exact ⟨x, hx, y, hy, l, hl, hm⟩

variable {w w' : World C L D}

/-- Along a chain of waiting threads the ranks of the locks increase. -/
theorem rank_le_of_chain {rank : L → Nat}
    (h : ∀ t l l', w.Waits t l → w.Holds t l' → rank l' < rank l) {t u : Nat}
    (hc : Relation.TransGen w.WaitsOn t u) : ∃ l l', w.Waits t l ∧ w.Holds u l' ∧ rank l ≤ rank l' := by
  induction hc with
  | single hs =>
    obtain ⟨l, hw, hh⟩ := hs
    exact ⟨l, l, hw, hh, Nat.le.refl⟩
  | tail _ hs ih =>
    obtain ⟨l, l', hw, hh, hle⟩ := ih
    obtain ⟨k, hwk, hhk⟩ := hs
    exact ⟨l, k, hw, hhk, Nat.le_trans hle (Nat.le_of_lt (h _ _ _ hwk hh))⟩

/-- Locks taken in increasing rank leave no circle of waiting threads. -/
theorem no_circle_of_rank (rank : L → Nat)
    (h : ∀ t l l', w.Waits t l → w.Holds t l' → rank l' < rank l) (t : Nat) :
    ¬Relation.TransGen w.WaitsOn t t := by
  intro hc
  obtain ⟨l, l', hw, hh, hle⟩ := rank_le_of_chain h hc
  exact Nat.not_le.mpr (h t l l' hw hh) hle

theorem step_call [DecidableEq L] {program : C → Prog L D} {t : Nat} {c : C}
    (H : w.step program (.call t c) = some w') :
    w' = { w with threads := w.threads.insert t ⟨c, [], program c⟩ } := by
  simp only [step] at H
  split at H
  · cases H
  · cases H
    rfl

theorem step_go [DecidableEq L] {program : C → Prog L D} {t : Nat}
    (H : w.step program (.go t) = some w') : ∃ x d x', w.threads.lookup t = some x ∧
      w.advance x = some (d, x') ∧ w' = ⟨d, w.threads.insert t x'⟩ := by
  simp only [step] at H
  split at H
  · cases H
  · rename_i x hx
    obtain ⟨⟨d, x'⟩, ha, rfl⟩ := Option.map_eq_some_iff.mp H
    exact ⟨x, d, x', hx, ha, rfl⟩

section advance
variable [DecidableEq L] {c : C} {held : List (L × Mode)} {l : L} {d : D} {x' : Thread C L D}
  {next : Prog L D}

theorem advance_acquire {m : Mode} (H : w.advance ⟨c, held, .acquire l m next⟩ = some (d, x')) :
    x' = ⟨c, (l, m) :: held, next⟩ := by
  simp only [advance] at H
  split at H
  · cases H
    rfl
  · cases H

theorem advance_release (H : w.advance ⟨c, held, .release l next⟩ = some (d, x')) :
    x' = ⟨c, held.filter (·.1 ≠ l), next⟩ := by
  cases H
  rfl

theorem advance_compute {update : D → D} {next : D → Prog L D}
    (H : w.advance ⟨c, held, .compute update next⟩ = some (d, x')) :
    x' = ⟨c, held, next w.data⟩ := by
  cases H
  rfl

theorem advance_call {x : Thread C L D} (H : w.advance x = some (d, x')) : x'.call = x.call := by
  unfold advance at H
  split at H
  · cases H
  · split at H
    · cases H
      rfl
    · cases H
  · cases H
    rfl
  · cases H
    rfl

end advance

/-- A thread that nests its locks goes on doing so. -/
theorem advance_nests [DecidableEq L] {edge : L → L → Prop} {x x' : Thread C L D} {d : D}
    (h : x.prog.Nests edge x.held) (H : w.advance x = some (d, x')) : x'.prog.Nests edge x'.held := by
  unfold advance at H
  split at H
  · cases H
  · rename_i hp
    rw [hp] at h
    split at H
    · cases H
      exact h.2
    · cases H
  · rename_i hp
    rw [hp] at h
    cases H
    exact h
  · rename_i hp
    rw [hp] at h
    cases H
    exact h _

end World

end TunnelWeaver.Locks
