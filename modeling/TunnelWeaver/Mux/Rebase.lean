import TunnelWeaver.Lib.Shift
import TunnelWeaver.Mux.Selection

/-! A rebase next to a scheduler that never needs one. `Unbounded` is the same scheduler with
timestamps of any size. A state that was set back `δ` and the one that was not pick the same flows,
as long as `δ` is a whole number of slots of every flow; a rebase keeps up with it when what it
takes off is one too, no flow that waits is that far back, and the flows that share a slot wait in
the order of their starts. -/

namespace TunnelWeaver.Mux

/-! ## Timestamps of any size -/

namespace Unbounded
variable {K : Type} [DecidableEq K]

def activate (p : Qfq K) (k : K) (headLen : Nat) : Qfq K :=
  match p.flows.lookup k with
  | none => p
  | some flow =>
    if flow.backlogged then p
    else
      let s := max flow.f p.v
      let flow := { flow with s, f := s + headLen * flow.invW, backlogged := true, headLen }
      { p with
        flows := p.flows.insert k flow
        v := if p.groups.isEmpty then max p.v s else p.v
        groups := Qfq.enqueue p.groups k flow }

def served (p : Qfq K) (k : K) (len : Nat) (nextLen : Option Nat) : Qfq K :=
  match p.flows.lookup k with
  | none => p
  | some flow =>
    if !flow.backlogged then p
    else
      let s := flow.f
      let flow' := match nextLen with
        | some n => { flow with s, f := s + n * flow.invW, headLen := n }
        | none => { flow with s, backlogged := false, headLen := 0 }
      { p with
        flows := p.flows.insert k flow'
        groups := p.groups.alter flow.group (Qfq.moveSlot k (slotKey flow.s flow.group)
          (nextLen.map fun _ => slotKey s flow.group))
        v := if p.wsum = 0 then p.v else p.v + len * oneFp / p.wsum }

/-- One group of the walk: the smallest finish time among the eligible coarser groups, and whose it
is. -/
def pickStep (v : Nat) (acc : Option (Nat × Nat)) (e : Nat × Group K) : Option (Nat × Nat) :=
  match Group.start e.2 with
  | none => acc
  | some s =>
    if v < s then acc
    else if acc.all (s + 2 * Qfq.slotSize e.1 ≤ ·.1) then some (s + 2 * Qfq.slotSize e.1, e.1)
    else acc

def pickGroup (p : Qfq K) : Qfq K × Option Nat :=
  if p.groups.isEmpty then (p, none)
  else
    let p := { p with v := p.jumpV }
    (p, (p.groups.entries.reverse.foldl (pickStep p.v) none).map (·.2))

def peek (p : Qfq K) : Qfq K × Option K :=
  let r := pickGroup p
  (r.1, r.2.bind fun idx => (r.1.groups.get? idx).bind fun g =>
    g.entries.head?.bind fun slot => slot.2.head?)

end Unbounded

/-! ## Calls -/

namespace Qfq
variable {K : Type} [DecidableEq K]

/-- What a caller does with the flows it has registered. -/
inductive Call (K : Type) where
  | peek
  | activate (k : K) (headLen : UInt32)
  | deactivate (k : K)
  | served (k : K) (len : UInt32) (nextLen : Option UInt32)

/-- A call, and the flow that a pick names. -/
def call (q : Qfq K) : Call K → Qfq K × Option K
  | .peek => q.peek
  | .activate k headLen => (q.activate k headLen.toNat, none)
  | .deactivate k => (q.deactivate k, none)
  | .served k len nextLen => (q.served k len.toNat (nextLen.map UInt32.toNat), none)

end Qfq

namespace Unbounded
variable {K : Type} [DecidableEq K]

def call (p : Qfq K) : Qfq.Call K → Qfq K × Option K
  | .peek => peek p
  | .activate k headLen => (activate p k headLen.toNat, none)
  | .deactivate k => (p.deactivate k, none)
  | .served k len nextLen => (served p k len.toNat (nextLen.map UInt32.toNat), none)

/-- What a caller is answered. -/
def answers (p : Qfq K) : List (Qfq.Call K) → List (Option K)
  | [] => []
  | c :: calls => (call p c).2 :: answers (call p c).1 calls

end Unbounded

namespace Qfq
variable {K : Type} [DecidableEq K]

/-- The same flows, in another order of the table. -/
def Reordered (q q' : Qfq K) : Prop :=
  ∃ flows : Map K Flow, (∀ k, flows.lookup k = q.flows.lookup k) ∧ q' = { q with flows }

/-- The states that operations lead to, whatever the order of the table before each. -/
inductive Reachable : Qfq K → Prop
  | new : Reachable new
  | step {q q₀ q' : Qfq K} {op : Op K} (h : Reachable q) (hre : Reordered q q₀)
    (H : q₀.apply op = some q') : Reachable q'

/-- An operation leaves `p` to a rebase. -/
def Due (q p : Qfq K) : Prop :=
  rebaseAt ≤ p.v ∧ ∃ k flow, q.flows.lookup k = some flow ∧
    ((∃ n : UInt32, flow.backlogged = false ∧ p = q.activated k flow n.toNat) ∨
      ∃ (len : UInt32) (nextLen : Option UInt32), flow.backlogged = true ∧
        p = q.advanced k flow len.toNat (nextLen.map UInt32.toNat))

/-- When a flow started. -/
def startOf (p : Qfq K) (k : K) : Nat := ((p.flows.lookup k).map (·.s)).getD 0

/-- A rebase takes a whole number of slots off each flow, and no more than a flow that waits has;
flows that share a slot wait in the order of their starts. -/
structure Clean (p : Qfq K) : Prop where
  aligned : ∀ e ∈ p.flows.entries, slotSize e.2.group ∣ p.v - rebaseTo
  ahead : ∀ e ∈ p.flows.entries, e.2.backlogged = true →
    p.v - rebaseTo ≤ e.2.s ∧ p.v - rebaseTo ≤ e.2.f
  inOrder : ∀ g ∈ p.groups.entries, ∀ slot ∈ g.2.entries,
    slot.2.Pairwise fun a b => p.startOf a < p.startOf b

instance (p : Qfq K) : Decidable (Clean p) :=
  decidable_of_iff
    ((∀ e ∈ p.flows.entries, slotSize e.2.group ∣ p.v - rebaseTo) ∧
      (∀ e ∈ p.flows.entries, e.2.backlogged = true →
        p.v - rebaseTo ≤ e.2.s ∧ p.v - rebaseTo ≤ e.2.f) ∧
      ∀ g ∈ p.groups.entries, ∀ slot ∈ g.2.entries,
        slot.2.Pairwise fun a b => p.startOf a < p.startOf b)
    ⟨fun h => ⟨h.1, h.2.1, h.2.2⟩, fun h => ⟨h.aligned, h.ahead, h.inOrder⟩⟩

/-- A call adds and compares without overflow, and a rebase that it makes is clean. -/
def Regular (q : Qfq K) : Call K → Prop
  | .peek => FinishesFit q.groups
  | .activate k headLen => q.fits (.activate k headLen) = true ∧
    ∀ flow ∈ q.flows.lookup k, flow.backlogged = false →
      rebaseAt ≤ (q.activated k flow headLen.toNat).v → Clean (q.activated k flow headLen.toNat)
  | .deactivate _ => True
  | .served k len nextLen => q.fits (.served k len nextLen) = true ∧
    q.clockFits (.served k len nextLen) = true ∧
    ∀ flow ∈ q.flows.lookup k, flow.backlogged = true →
      rebaseAt ≤ (q.advanced k flow len.toNat (nextLen.map UInt32.toNat)).v →
        Clean (q.advanced k flow len.toNat (nextLen.map UInt32.toNat))

instance (q : Qfq K) : (c : Call K) → Decidable (Regular q c)
  | .peek => inferInstanceAs (Decidable (FinishesFit q.groups))
  | .activate k headLen => inferInstanceAs (Decidable (q.fits (.activate k headLen) = true ∧
    ∀ flow ∈ q.flows.lookup k, flow.backlogged = false →
      rebaseAt ≤ (q.activated k flow headLen.toNat).v → Clean (q.activated k flow headLen.toNat)))
  | .deactivate _ => inferInstanceAs (Decidable True)
  | .served k len nextLen =>
    inferInstanceAs (Decidable (q.fits (.served k len nextLen) = true ∧
      q.clockFits (.served k len nextLen) = true ∧
      ∀ flow ∈ q.flows.lookup k, flow.backlogged = true →
        rebaseAt ≤ (q.advanced k flow len.toNat (nextLen.map UInt32.toNat)).v →
          Clean (q.advanced k flow len.toNat (nextLen.map UInt32.toNat))))

/-- What a caller is answered whose calls are all regular, whatever the order of the table before
each. -/
inductive Answers : Qfq K → List (Call K) → List (Option K) → Prop
  | nil (q : Qfq K) : Answers q [] []
  | cons {q q₀ : Qfq K} {c : Call K} {calls : List (Call K)} {answers : List (Option K)}
    (hre : Reordered q q₀) (hregular : Regular q₀ c) (h : Answers (q₀.call c).1 calls answers) :
    Answers q (c :: calls) ((q₀.call c).2 :: answers)

variable {q q' p p' : Qfq K} {k : K} {flow : Flow}

theorem Reordered.refl (q : Qfq K) : Reordered q q := ⟨_, fun _ => rfl, rfl⟩

theorem Wf.reordered (W : q.Wf) (h : Reordered q q') : q'.Wf := by
  obtain ⟨flows, hflows, rfl⟩ := h
  have hplace : placeOf { q with flows } = q.placeOf := funext fun k => by
    simp only [placeOf, hflows]
  unfold Wf
  rw [hplace]
  exact W

theorem Reachable.wf (H : Reachable q) : q.Wf := by
  induction H with
  | new => exact wf_new
  | step _ hre H ih => exact (ih.reordered hre).apply H

theorem reachable_of_reached {ops : List (Op K)} (H : reached ops = some q) : Reachable q :=
  Automaton.run_invariant (p := fun _ => True)
    (fun R _ H => R.step (.refl _) H) (fun _ _ => trivial) .new H

theorem Wf.activated (W : q.Wf) (hk : q.flows.lookup k = some flow)
    (hb : flow.backlogged = false) (n : Nat) : (q.activated k flow n).Wf := by
  refine Placed.enqueue (p := q.placeOf) W ?_ ?_ fun l hne => ?_
  · simp [placeOf, hk, place, hb]
  · simp [placeOf, Qfq.activated, place, Flow.activated]
  · simp only [placeOf, Qfq.activated, Map.lookup_insert_ite, if_neg hne]

theorem Wf.advanced (W : q.Wf) (hk : q.flows.lookup k = some flow)
    (hb : flow.backlogged = true) (len : Nat) (nextLen : Option Nat) :
    (q.advanced k flow len nextLen).Wf := by
  refine Placed.moveSlot (p := q.placeOf) W ?_ ?_ fun l hne => ?_
  · simp [placeOf, hk, place, hb]
  · cases nextLen <;> simp [placeOf, Qfq.advanced, Flow.advanced, place, hb]
  · simp only [placeOf, Qfq.advanced, Map.lookup_insert_ite, if_neg hne]

theorem Due.wf (W : q.Wf) (h : Due q p) : p.Wf := by
  obtain ⟨-, k, flow, hk, ⟨n, hb, rfl⟩ | ⟨len, nextLen, hb, rfl⟩⟩ := h
  · exact W.activated hk hb _
  · exact W.advanced hk hb _ _

/-! ## Slots that are set back -/

/-- Every slot of every group `δ` later. -/
def shiftGroups (δ : Nat) (groups : OrdMap (Group K)) : OrdMap (Group K) :=
  groups.mapValues (OrdMap.shiftKeys δ)

theorem slotKey_add {s group δ : Nat} (h : slotSize group ∣ δ) :
    slotKey (s + δ) group = slotKey s group + δ := by
  obtain ⟨c, rfl⟩ := h
  rw [slotKey_eq, slotKey_eq, Nat.add_mul_div_left _ _ (slotSize_pos group), Nat.add_mul,
    Nat.mul_comm c]

theorem slotKey_sub {s group δ : Nat} (h : slotSize group ∣ δ) (hle : δ ≤ s) :
    slotKey (s - δ) group + δ = slotKey s group := by
  rw [← slotKey_add h, Nat.sub_add_cancel hle]

omit [DecidableEq K] in
theorem insert_shiftKeys (δ : Nat) (g : Group K) (key : Nat) (k : K) :
    Group.insert (OrdMap.shiftKeys δ g) (key + δ) k = OrdMap.shiftKeys δ (Group.insert g key k) :=
  OrdMap.alter_shiftKeys ..

theorem remove_shiftKeys (δ : Nat) (g : Group K) (key : Nat) (k : K) :
    Group.remove (OrdMap.shiftKeys δ g) (key + δ) k = OrdMap.shiftKeys δ (Group.remove g key k) :=
  OrdMap.alter_shiftKeys ..

omit [DecidableEq K] in
theorem keepGroup_shiftKeys (δ : Nat) (g : Group K) :
    keepGroup (OrdMap.shiftKeys δ g) = (keepGroup g).map (OrdMap.shiftKeys δ) := by
  unfold keepGroup
  rw [OrdMap.isEmpty_shiftKeys]
  split <;> rfl

omit [DecidableEq K] in
theorem enqueue_shiftGroups {δ : Nat} {groups : OrdMap (Group K)} {a b : Flow}
    (hgroup : b.group = a.group) (h : slotSize a.group ∣ δ) (hs : b.s = a.s + δ) (k : K) :
    enqueue (shiftGroups δ groups) k b = shiftGroups δ (enqueue groups k a) := by
  unfold enqueue shiftGroups
  rw [hgroup, hs, slotKey_add h]
  refine OrdMap.alter_mapValues (fun o => ?_) _ _
  cases o with
  | none => exact congrArg some (insert_shiftKeys δ .empty _ k)
  | some g => exact congrArg some (insert_shiftKeys δ g _ k)

theorem moveSlot_shiftGroups (δ : Nat) (groups : OrdMap (Group K)) (idx key : Nat)
    (key' : Option Nat) (k : K) :
    (shiftGroups δ groups).alter idx (moveSlot k (key + δ) (key'.map (· + δ))) =
      shiftGroups δ (groups.alter idx (moveSlot k key key')) := by
  refine OrdMap.alter_mapValues (fun o => ?_) _ _
  cases o with
  | none => rfl
  | some g =>
    simp only [Option.map_some, moveSlot, remove_shiftKeys]
    cases key' with
    | none => exact keepGroup_shiftKeys ..
    | some key' =>
      simp only [Option.map_some, insert_shiftKeys]
      exact keepGroup_shiftKeys ..

omit [DecidableEq K] in
theorem start_shiftKeys (δ : Nat) (g : Group K) :
    Group.start (OrdMap.shiftKeys δ g) = (Group.start g).map (· + δ) := by
  simp only [Group.start, OrdMap.shiftKeys, List.head?_map, Option.map_map]
  rfl

omit [DecidableEq K] in
theorem isEmpty_shiftGroups (δ : Nat) (groups : OrdMap (Group K)) :
    (shiftGroups δ groups).isEmpty = groups.isEmpty := OrdMap.isEmpty_mapValues ..

/-! ## A scheduler that was set back -/

/-- The flow `b` is `a` before it was set back `δ`; what an idle flow finished before `v` is not
seen again. -/
structure Ahead (δ v : Nat) (a b : Flow) : Prop where
  group : b.group = a.group
  invW : b.invW = a.invW
  backlogged : b.backlogged = a.backlogged
  aligned : slotSize a.group ∣ δ
  start : a.backlogged = true → b.s = a.s + δ
  finish : b.f = a.f + δ ∨ a.backlogged = false ∧ a.f ≤ v ∧ b.f ≤ v + δ

theorem Ahead.mono {δ v v' : Nat} {a b : Flow} (h : Ahead δ v a b) (hv : v ≤ v') :
    Ahead δ v' a b :=
  { h with finish := h.finish.imp_right fun hidle =>
      ⟨hidle.1, hidle.2.1.trans hv, hidle.2.2.trans (Nat.add_le_add_right hv δ)⟩ }

/-- A flow that is set back once more. -/
theorem Ahead.shift {δ v v' d : Nat} {a b : Flow} (h : Ahead δ v a b) (hv : v = v' + d)
    (haligned : slotSize a.group ∣ d) (hahead : a.backlogged = true → d ≤ a.s ∧ d ≤ a.f) :
    Ahead (d + δ) v' (Flow.shift d a) b where
  group := h.group
  invW := h.invW
  backlogged := h.backlogged
  aligned := Nat.dvd_add haligned h.aligned
  start hb := by
    have := h.start hb
    have := (hahead hb).1
    simp only [Flow.shift]
    omega
  finish := by
    simp only [Flow.shift]
    rcases h.finish with hf | ⟨hb, ha, hf⟩
    · by_cases hle : d ≤ a.f
      · exact .inl (by omega)
      · refine .inr ⟨Bool.eq_false_iff.mpr fun hb => hle (hahead hb).2, ?_, ?_⟩ <;> omega
    · exact .inr ⟨hb, by omega, by omega⟩

theorem Ahead.finish_of_backlogged {δ v : Nat} {a b : Flow} (h : Ahead δ v a b)
    (hb : a.backlogged = true) : b.f = a.f + δ := by
  refine h.finish.resolve_right fun hidle => ?_
  rw [hb] at hidle
  cases hidle.1

/-- The state `p` is `q` before it was set back `δ`. -/
structure Shifted (δ : Nat) (q p : Qfq K) : Prop where
  v : p.v = q.v + δ
  wsum : p.wsum = q.wsum
  groups : p.groups = shiftGroups δ q.groups
  flows : ∀ k, Option.Rel (Ahead δ q.v) (q.flows.lookup k) (p.flows.lookup k)

namespace Shifted
variable {δ : Nat}

theorem refl (p : Qfq K) : Shifted 0 p p where
  v := rfl
  wsum := rfl
  groups := (OrdMap.mapValues_id OrdMap.shiftKeys_zero _).symm
  flows k := by
    cases p.flows.lookup k with
    | none => exact .none
    | some a => exact .some ⟨rfl, rfl, rfl, Nat.dvd_zero _, fun _ => rfl, .inl rfl⟩

theorem reordered (S : Shifted δ q p) (h : Reordered q q') : Shifted δ q' p := by
  obtain ⟨flows, hflows, rfl⟩ := h
  exact ⟨S.v, S.wsum, S.groups, fun k => hflows k ▸ S.flows k⟩

theorem cases_lookup (S : Shifted δ q p) (k : K) :
    q.flows.lookup k = none ∧ p.flows.lookup k = none ∨
    ∃ a b, q.flows.lookup k = some a ∧ p.flows.lookup k = some b ∧ Ahead δ q.v a b := by
  have h := S.flows k
  cases ha : q.flows.lookup k with
  | none =>
    cases hb : p.flows.lookup k with
    | none => exact .inl ⟨rfl, rfl⟩
    | some b =>
      rw [ha, hb] at h
      cases h
  | some a =>
    cases hb : p.flows.lookup k with
    | none =>
      rw [ha, hb] at h
      cases h
    | some b =>
      rw [ha, hb] at h
      exact .inr ⟨a, b, rfl, rfl, Option.rel_some_some.mp h⟩

/-- One flow changes on both sides, and the clock does not run back. -/
theorem update {a b : Flow} {v w : Nat} {groups groups' : OrdMap (Group K)} (S : Shifted δ q p)
    (h : Ahead δ v a b) (hv : q.v ≤ v) (hw : w = v + δ) (hgroups : groups' = shiftGroups δ groups) :
    Shifted δ { q with flows := q.flows.insert k a, groups, v }
      { p with flows := p.flows.insert k b, groups := groups', v := w } where
  v := hw
  wsum := S.wsum
  groups := hgroups
  flows l := by
    rw [Map.lookup_insert_ite, Map.lookup_insert_ite]
    split
    · exact .some h
    · rcases S.cases_lookup l with ⟨hq, hp⟩ | ⟨a', b', hq, hp, h'⟩
      · rw [hq, hp]
        exact .none
      · rw [hq, hp]
        exact .some (h'.mono hv)

theorem isEmpty (S : Shifted δ q p) : p.groups.isEmpty = q.groups.isEmpty := by
  rw [S.groups, isEmpty_shiftGroups]

/-! ### Calls -/

theorem activated {a b : Flow} {n : Nat} (S : Shifted δ q p) (hp : p.flows.lookup k = some b)
    (h : Ahead δ q.v a b) (hb : a.backlogged = false)
    (hfits : max a.f q.v + n * a.invW < 2 ^ 64) :
    Shifted δ (q.activated k a n) (Unbounded.activate p k n) := by
  have hstart : max b.f p.v = max a.f q.v + δ := by
    have := S.v
    rcases h.finish with hf | ⟨-, ha, hf⟩ <;> omega
  have hfinish : wrap64 (max a.f q.v + n * a.invW) = max a.f q.v + n * a.invW :=
    Nat.mod_eq_of_lt hfits
  have hp' : Unbounded.activate p k n = { p with
      flows := p.flows.insert k { b with
        s := max b.f p.v, f := max b.f p.v + n * b.invW, backlogged := true, headLen := n }
      v := if p.groups.isEmpty then max p.v (max b.f p.v) else p.v
      groups := enqueue p.groups k { b with
        s := max b.f p.v, f := max b.f p.v + n * b.invW, backlogged := true, headLen := n } } := by
    unfold Unbounded.activate
    rw [hp]
    dsimp only
    rw [if_neg (by rw [h.backlogged, hb]; decide)]
  rw [hp']
  refine S.update ⟨h.group, h.invW, rfl, h.aligned, fun _ => hstart, .inl ?_⟩ ?_ ?_ ?_
  · simp only [Flow.activated, hstart, hfinish, h.invW]
    omega
  · split
    · exact Nat.le_max_left ..
    · exact Nat.le_refl _
  · rw [S.isEmpty, hstart, S.v]
    split <;> omega
  · rw [S.groups]
    refine enqueue_shiftGroups ?_ ?_ ?_ k
    · exact h.group
    · exact h.aligned
    · exact hstart

theorem advanced {a b : Flow} {len : Nat} {nextLen : Option Nat} (S : Shifted δ q p)
    (hp : p.flows.lookup k = some b) (h : Ahead δ q.v a b) (hb : a.backlogged = true)
    (hfits : ∀ n, nextLen = some n → a.f + n * a.invW < 2 ^ 64)
    (hclock : q.wsum = 0 ∨ q.v + len * oneFp / q.wsum < 2 ^ 64) :
    Shifted δ (q.advanced k a len nextLen) (Unbounded.served p k len nextLen) := by
  have hfinish := h.finish_of_backlogged hb
  have hb' : (!b.backlogged) = false := by rw [h.backlogged, hb]; rfl
  have hclock' : (if q.wsum = 0 then q.v else wrap64 (q.v + len * oneFp / q.wsum)) =
      if q.wsum = 0 then q.v else q.v + len * oneFp / q.wsum := by
    split
    · rfl
    · rename_i hne
      exact Nat.mod_eq_of_lt (hclock.resolve_left hne)
  have hslots : (shiftGroups δ q.groups).alter b.group (moveSlot k (slotKey b.s b.group)
      (nextLen.map fun _ => slotKey b.f b.group)) =
      shiftGroups δ (q.groups.alter a.group (moveSlot k (slotKey a.s a.group)
        (nextLen.map fun _ => slotKey a.f a.group))) := by
    have hmap : (nextLen.map fun _ => slotKey b.f b.group) =
        (nextLen.map fun _ => slotKey a.f a.group).map (· + δ) := by
      rw [h.group, hfinish, slotKey_add h.aligned, Option.map_map]
      rfl
    rw [hmap, h.group, h.start hb, slotKey_add h.aligned]
    exact moveSlot_shiftGroups ..
  have hv : q.v ≤ (q.advanced k a len nextLen).v := by
    unfold Qfq.advanced
    dsimp only
    rw [hclock']
    split
    · exact Nat.le_refl _
    · exact Nat.le_add_right ..
  have hw : (if p.wsum = 0 then p.v else p.v + len * oneFp / p.wsum) =
      (q.advanced k a len nextLen).v + δ := by
    unfold Qfq.advanced
    dsimp only
    rw [hclock', S.wsum, S.v]
    split <;> omega
  unfold Unbounded.served
  rw [hp]
  dsimp only
  rw [if_neg (by rw [hb']; decide)]
  refine S.update ?_ hv hw (S.groups ▸ hslots)
  cases nextLen with
  | none => exact ⟨h.group, h.invW, rfl, h.aligned, fun hfalse => (by cases hfalse), .inl hfinish⟩
  | some n =>
    refine ⟨h.group, h.invW, h.backlogged, h.aligned, fun _ => hfinish, .inl ?_⟩
    simp only [Flow.advanced, hfinish, h.invW, wrap64, Nat.mod_eq_of_lt (hfits n rfl)]
    omega

theorem deactivate (S : Shifted δ q p) (k : K) : Shifted δ (q.deactivate k) (p.deactivate k) := by
  rcases S.cases_lookup k with ⟨hq, hp⟩ | ⟨a, b, hq, hp, h⟩
  · unfold Qfq.deactivate
    rw [hq, hp]
    exact S
  · unfold Qfq.deactivate
    rw [hq, hp]
    dsimp only
    rw [h.backlogged]
    split
    · exact S
    · rename_i hb
      have hb : a.backlogged = true := by simpa using hb
      have hfinish := h.finish_of_backlogged hb
      refine S.update ⟨h.group, h.invW, rfl, h.aligned, fun hfalse => (by cases hfalse),
        .inl hfinish⟩ (Nat.le_refl _) S.v ?_
      rw [S.groups, h.group, h.start hb, slotKey_add h.aligned]
      exact moveSlot_shiftGroups δ q.groups a.group _ none k

end Shifted

/-! ### Picks -/

omit [DecidableEq K] in
theorem starts_shiftGroups {δ : Nat} {groups : OrdMap (Group K)} {idx s : Nat} :
    Starts (shiftGroups δ groups) idx s ↔ ∃ s', Starts groups idx s' ∧ s = s' + δ := by
  unfold Starts shiftGroups
  rw [OrdMap.get?_mapValues]
  constructor
  · rintro ⟨g', hg', hs⟩
    obtain ⟨g, hg, rfl⟩ := Option.map_eq_some_iff.mp hg'
    rw [start_shiftKeys] at hs
    obtain ⟨s', hs', rfl⟩ := Option.map_eq_some_iff.mp hs
    exact ⟨s', ⟨g, hg, hs'⟩, rfl⟩
  · rintro ⟨s', ⟨g, hg, hs'⟩, rfl⟩
    exact ⟨_, by rw [hg]; rfl, by rw [start_shiftKeys, hs']; rfl⟩

omit [DecidableEq K] in
theorem Raised.shift {δ v v' w' : Nat} {groups : OrdMap (Group K)} (H : Raised groups v v')
    (H' : Raised (shiftGroups δ groups) (v + δ) w') : w' = v' + δ := by
  by_cases hstarted : ∃ idx s, Starts groups idx s ∧ s ≤ v
  · obtain ⟨idx, s, hs, hle⟩ := hstarted
    rw [H.started ⟨idx, s, hs, hle⟩, H'.started ⟨idx, s + δ, starts_shiftGroups.mpr ⟨s, hs, rfl⟩,
      Nat.add_le_add_right hle δ⟩]
  have hstarted' : ¬∃ idx s, Starts (shiftGroups δ groups) idx s ∧ s ≤ v + δ := by
    rintro ⟨idx, s, hs, hle⟩
    obtain ⟨s', hs', rfl⟩ := starts_shiftGroups.mp hs
    exact hstarted ⟨idx, s', hs', Nat.le_of_add_le_add_right hle⟩
  by_cases hsome : ∃ idx s, Starts groups idx s
  · obtain ⟨idx, s, hs⟩ := hsome
    obtain ⟨-, i, hi⟩ := H.least hstarted idx s hs
    obtain ⟨hle, j, hj⟩ := H'.least hstarted' i (v' + δ) (starts_shiftGroups.mpr ⟨v', hi, rfl⟩)
    obtain ⟨t, ht, rfl⟩ := starts_shiftGroups.mp hj
    have := (H.least hstarted j t ht).1
    omega
  · rw [H.idle fun idx s hs => hsome ⟨idx, s, hs⟩, H'.idle fun idx s hs => ?_]
    obtain ⟨s', hs', -⟩ := starts_shiftGroups.mp hs
    exact hsome ⟨idx, s', hs'⟩

/-- The walks keep the same group; nothing kept is a finish past every time. -/
def SameWalk (δ : Nat) (acc : Nat × Option Nat) (acc' : Option (Nat × Nat)) : Prop :=
  acc = (u64Max, none) ∧ acc' = none ∨
    ∃ f idx, acc = (f, some idx) ∧ acc' = some (f + δ, idx)

omit [DecidableEq K] in
theorem SameWalk.step {δ v : Nat} {acc : Nat × Option Nat} {acc' : Option (Nat × Nat)}
    {e : Nat × Group K} (H : SameWalk δ acc acc')
    (hfits : ∀ s, Group.start e.2 = some s → s + 2 * slotSize e.1 < 2 ^ 64) :
    SameWalk δ (pickStep v acc e)
      (Unbounded.pickStep (v + δ) acc' (e.1, OrdMap.shiftKeys δ e.2)) := by
  unfold pickStep Unbounded.pickStep
  dsimp only
  rw [start_shiftKeys]
  cases hs : Group.start e.2 with
  | none => exact H
  | some s =>
    rw [finish_eq hs (hfits s hs), Option.map_some]
    dsimp only
    by_cases hv : v < s
    · rw [if_pos hv, if_pos (Nat.add_lt_add_right hv δ)]
      exact H
    rw [if_neg hv, if_neg fun h => hv (Nat.lt_of_add_lt_add_right h)]
    have hfinish : s + δ + 2 * slotSize e.1 = s + 2 * slotSize e.1 + δ := by omega
    rw [hfinish]
    have hlt := hfits s hs
    rcases H with ⟨rfl, rfl⟩ | ⟨f, idx, rfl, rfl⟩
    · rw [if_pos (show s + 2 * slotSize e.1 ≤ u64Max by unfold u64Max; omega)]
      exact .inr ⟨_, _, rfl, rfl⟩
    · simp only [Option.all_some, decide_eq_true_eq, Nat.add_le_add_iff_right]
      split
      · exact .inr ⟨_, _, rfl, rfl⟩
      · exact .inr ⟨_, _, rfl, rfl⟩

omit [DecidableEq K] in
theorem SameWalk.foldl {δ v : Nat} {l : List (Nat × Group K)}
    (hfits : ∀ e ∈ l, ∀ s, Group.start e.2 = some s → s + 2 * slotSize e.1 < 2 ^ 64)
    {acc : Nat × Option Nat} {acc' : Option (Nat × Nat)} (H : SameWalk δ acc acc') :
    SameWalk δ (l.foldl (pickStep v) acc) ((l.map fun e => (e.1, OrdMap.shiftKeys δ e.2)).foldl
      (Unbounded.pickStep (v + δ)) acc') := by
  induction l generalizing acc acc' with
  | nil => exact H
  | cons e l ih =>
    exact ih (fun e' he' => hfits e' (List.mem_cons_of_mem _ he'))
      (H.step (hfits e List.mem_cons_self))

theorem Shifted.peek {δ : Nat} (S : Shifted δ q p) (hfits : FinishesFit q.groups) :
    (Unbounded.peek p).2 = q.peek.2 ∧ Shifted δ q.peek.1 (Unbounded.peek p).1 := by
  have hempty := S.isEmpty
  unfold Unbounded.peek Unbounded.pickGroup Qfq.peek pickGroup
  rw [hempty]
  split
  · exact ⟨rfl, S⟩
  have hjump : p.jumpV = q.jumpV + δ := by
    have H := raised_jumpV p
    rw [S.groups, S.v] at H
    exact (raised_jumpV q).shift H
  have hwalk : SameWalk δ (q.groups.entries.reverse.foldl (pickStep q.jumpV) (u64Max, none))
      (p.groups.entries.reverse.foldl (Unbounded.pickStep p.jumpV) none) := by
    rw [hjump, S.groups, shiftGroups, OrdMap.mapValues, ← List.map_reverse]
    refine SameWalk.foldl (fun e he s hs => ?_) (.inl ⟨rfl, rfl⟩)
    exact hfits e.1 s (starts_iff.mpr ⟨e.2, List.mem_reverse.mp he, hs⟩)
  have hpick : (p.groups.entries.reverse.foldl (Unbounded.pickStep p.jumpV) none).map (·.2) =
      (q.groups.entries.reverse.foldl (pickStep q.jumpV) (u64Max, none)).2 := by
    rcases hwalk with ⟨h, h'⟩ | ⟨f, idx, h, h'⟩ <;> rw [h, h'] <;> rfl
  refine ⟨?_, ⟨hjump, S.wsum, S.groups, fun k => ?_⟩⟩
  · dsimp only
    rw [hpick]
    refine congrArg _ (funext fun idx => ?_)
    rw [S.groups, shiftGroups, OrdMap.get?_mapValues]
    cases q.groups.get? idx with
    | none => rfl
    | some g =>
      simp only [Option.map_some, Option.bind_some, OrdMap.shiftKeys, List.head?_map]
      cases g.entries.head? <;> rfl
  · rcases S.cases_lookup k with ⟨hq, hp⟩ | ⟨a, b, hq, hp, h⟩
    · dsimp only
      rw [hq, hp]
      exact .none
    · dsimp only
      rw [hq, hp]
      exact .some (h.mono (le_jumpV q))

/-! ### Rebases -/

omit [DecidableEq K] in
/-- Without empty groups and slots, groups are what their slots hold. -/
theorem Tight.ext {groups groups' : OrdMap (Group K)} (T : Tight groups) (T' : Tight groups')
    (h : ∀ i j, slotAt groups i j = slotAt groups' i j) : groups = groups' := by
  have hslot : ∀ {groups : OrdMap (Group K)}, Tight groups → ∀ {i g}, groups.get? i = some g →
      ∃ j, slotAt groups i j ≠ [] := by
    rintro groups T i g hg
    obtain ⟨hne, hg'⟩ := T i g hg
    cases hentries : g.entries with
    | nil => simp [OrdMap.isEmpty, hentries] at hne
    | cons slot rest =>
      have hget : OrdMap.get? g slot.1 = some slot.2 := OrdMap.get?_eq_some.mpr (by simp [hentries])
      refine ⟨slot.1, fun hnil => hg' slot.1 ?_⟩
      rw [slotAt, hg, Option.bind_some, hget, Option.getD_some] at hnil
      rw [hget, hnil]
  have hnone : ∀ {groups : OrdMap (Group K)} {i : Nat}, groups.get? i = none →
      ∀ j, slotAt groups i j = [] := by
    rintro groups i hg j
    rw [slotAt, hg]
    rfl
  refine OrdMap.ext_get? fun i => ?_
  cases hg : groups.get? i with
  | none =>
    cases hg' : groups'.get? i with
    | none => rfl
    | some g' =>
      obtain ⟨j, hj⟩ := hslot T' hg'
      exact absurd ((h i j).symm.trans (hnone hg j)) hj
  | some g =>
    cases hg' : groups'.get? i with
    | none =>
      obtain ⟨j, hj⟩ := hslot T hg
      exact absurd ((h i j).trans (hnone hg' j)) hj
    | some g' =>
      refine congrArg some (OrdMap.ext_get? fun j => ?_)
      have hj := h i j
      rw [slotAt, slotAt, hg, hg', Option.bind_some, Option.bind_some] at hj
      cases hl : OrdMap.get? g j with
      | none =>
        cases hl' : OrdMap.get? g' j with
        | none => rfl
        | some l' =>
          rw [hl, hl'] at hj
          exact absurd (hl'.trans (congrArg some hj.symm)) ((T' i g' hg').2 j)
      | some l =>
        cases hl' : OrdMap.get? g' j with
        | none =>
          rw [hl, hl'] at hj
          exact absurd (hl.trans (congrArg some hj)) ((T i g hg).2 j)
        | some l' =>
          rw [hl, hl'] at hj
          exact congrArg some hj

omit [DecidableEq K] in
theorem slotAt_shiftGroups_add (δ : Nat) (groups : OrdMap (Group K)) (i j : Nat) :
    slotAt (shiftGroups δ groups) i (j + δ) = slotAt groups i j := by
  unfold slotAt shiftGroups
  rw [OrdMap.get?_mapValues]
  cases groups.get? i with
  | none => rfl
  | some g => rw [Option.map_some, Option.bind_some, Option.bind_some, OrdMap.get?_shiftKeys_add]

omit [DecidableEq K] in
theorem slotAt_shiftGroups_of_lt {δ j : Nat} (hj : j < δ) (groups : OrdMap (Group K)) (i : Nat) :
    slotAt (shiftGroups δ groups) i j = [] := by
  unfold slotAt shiftGroups
  rw [OrdMap.get?_mapValues]
  cases groups.get? i with
  | none => rfl
  | some g =>
    rw [Option.map_some, Option.bind_some, OrdMap.get?_shiftKeys_of_lt hj]
    rfl

omit [DecidableEq K] in
theorem Tight.shift {groups : OrdMap (Group K)} (T : Tight groups) (δ : Nat) :
    Tight (shiftGroups δ groups) := by
  rintro i g' hg'
  unfold shiftGroups at hg'
  rw [OrdMap.get?_mapValues] at hg'
  obtain ⟨g, hg, rfl⟩ := Option.map_eq_some_iff.mp hg'
  obtain ⟨hne, hg⟩ := T i g hg
  refine ⟨by rw [OrdMap.isEmpty_shiftKeys, hne], fun key hkey => ?_⟩
  rcases Nat.lt_or_ge key δ with hlt | hle
  · rw [OrdMap.get?_shiftKeys_of_lt hlt] at hkey
    cases hkey
  · obtain ⟨j, rfl⟩ := Nat.exists_eq_add_of_le' hle
    rw [OrdMap.get?_shiftKeys_add] at hkey
    exact hg j hkey

omit [DecidableEq K] in
theorem slotAt_foldl_enqueue (l : List (K × Flow)) (groups : OrdMap (Group K)) (i j : Nat) :
    slotAt (l.foldl (fun groups e => enqueue groups e.1 e.2) groups) i j = slotAt groups i j ++
      (l.filter fun e => i = e.2.group ∧ j = slotKey e.2.s e.2.group).map (·.1) := by
  induction l generalizing groups with
  | nil => exact (List.append_nil _).symm
  | cons e l ih =>
    rw [List.foldl_cons, ih, slotAt_enqueue, List.append_assoc, List.filter_cons]
    split <;> rename_i h
    · rw [if_pos (by simpa using h)]
      rfl
    · rw [if_neg (by simpa using h)]
      rfl

theorem nodup_slotAt (W : q.Wf) (i j : Nat) : (slotAt q.groups i j).Nodup := by
  refine List.nodup_iff_count_le_one.mpr fun k => ?_
  rw [W.count]
  split <;> omega

theorem Wf.maybeRebase (W : p.Wf) : p.maybeRebase.Wf :=
  wf_maybeRebase fun q' hflows hgroups => by
    have hplace : q'.placeOf = p.placeOf := funext fun k => by rw [placeOf, placeOf, hflows]
    unfold Wf
    rw [hplace, hgroups]
    exact W

omit [DecidableEq K] in
theorem pairwise_activeByStart (flows : Map K Flow) :
    (activeByStart flows).Pairwise fun a b => a.2.s ≤ b.2.s := by
  have htotal : Std.Total fun a b : K × Flow => a.2.s ≤ b.2.s := ⟨fun a b => Nat.le_total ..⟩
  have htrans : IsTrans (K × Flow) fun a b => a.2.s ≤ b.2.s := ⟨fun _ _ _ => Nat.le_trans⟩
  exact List.pairwise_insertionSort _ _

theorem startOf_eq (h : p.flows.lookup k = some flow) : p.startOf k = flow.s := by
  rw [startOf, h]
  rfl

namespace Clean
variable {δ : Nat}

theorem aligned_of (C : Clean p) (hδ : p.v - rebaseTo = δ) (hk : p.flows.lookup k = some flow) :
    slotSize flow.group ∣ δ :=
  hδ ▸ C.aligned ⟨k, flow⟩ (AList.mem_lookup_iff.mp hk)

theorem reordered (C : Clean p) (h : Reordered p p') : Clean p' := by
  obtain ⟨flows, hflows, rfl⟩ := h
  have hentries : ∀ e ∈ flows.entries, e ∈ p.flows.entries := fun e he =>
    AList.mem_lookup_iff.mp ((hflows e.1).symm.trans (Map.lookup_of_mem he))
  have hstart : startOf { p with flows } = p.startOf := funext fun k => by
    simp only [startOf, hflows]
  refine ⟨fun e he => C.aligned e (hentries e he), fun e he => C.ahead e (hentries e he), ?_⟩
  rw [hstart]
  exact C.inOrder

theorem ahead_of (C : Clean p) (hδ : p.v - rebaseTo = δ) (hk : p.flows.lookup k = some flow)
    (hb : flow.backlogged = true) : δ ≤ flow.s ∧ δ ≤ flow.f :=
  hδ ▸ C.ahead ⟨k, flow⟩ (AList.mem_lookup_iff.mp hk) hb

/-- A flow that waits moves as far as the clock. -/
theorem placeOf (C : Clean p) (hδ : p.v - rebaseTo = δ)
    (hflows : q.flows = p.flows.mapValues (Flow.shift δ)) (k : K) :
    p.placeOf k = (q.placeOf k).map fun e => (e.1, e.2 + δ) := by
  unfold Qfq.placeOf
  rw [hflows, Map.lookup_mapValues]
  cases hk : p.flows.lookup k with
  | none => rfl
  | some flow =>
    rw [Option.map_some, Option.bind_some, Option.bind_some]
    unfold place
    rw [Flow.shift_backlogged]
    split
    · rename_i hb
      exact congrArg (fun key => some (flow.group, key))
        (slotKey_sub (C.aligned_of hδ hk) (C.ahead_of hδ hk hb).1).symm
    · rfl

/-- The groups that a clean rebase builds are those there were, set back. -/
theorem groups (C : Clean p) (hδ : p.v - rebaseTo = δ) (W : p.Wf) (hv : rebaseAt ≤ p.v) :
    p.groups = shiftGroups δ p.maybeRebase.groups := by
  obtain ⟨q, hq⟩ : ∃ q, q = p.maybeRebase := ⟨_, rfl⟩
  have W' : q.Wf := hq ▸ W.maybeRebase
  have hflows : q.flows = p.flows.mapValues (Flow.shift δ) := by
    rw [hq, Qfq.maybeRebase, if_neg (Nat.not_lt.mpr hv), hδ]
  have hgroups : q.groups = (activeByStart q.flows).foldl (fun groups e => enqueue groups e.1 e.2)
      .empty := by
    rw [hflows, hq, Qfq.maybeRebase, if_neg (Nat.not_lt.mpr hv), hδ]
  rw [← hq]
  have hplace := fun k => C.placeOf hδ hflows k
  refine Tight.ext W.tight (W'.tight.shift _) fun i j => ?_
  rcases Nat.lt_or_ge j δ with hj | hj
  · rw [slotAt_shiftGroups_of_lt hj, List.eq_nil_iff_forall_not_mem]
    intro k hk
    have hk := (Placed.mem_iff W).mp hk
    rw [hplace] at hk
    obtain ⟨e, -, he⟩ := Option.map_eq_some_iff.mp hk
    have := (Prod.mk.inj he).2
    omega
  obtain ⟨j, rfl⟩ := Nat.exists_eq_add_of_le' hj
  rw [slotAt_shiftGroups_add]
  have hmem : ∀ k, k ∈ slotAt p.groups i (j + δ) ↔ k ∈ slotAt q.groups i j := by
    intro k
    rw [Placed.mem_iff W, Placed.mem_iff W', hplace, Option.map_eq_some_iff]
    constructor
    · rintro ⟨e, he, heq⟩
      obtain ⟨h₁, h₂⟩ := Prod.mk.inj heq
      rw [he, ← h₁, ← Nat.add_right_cancel h₂]
    · exact fun h => ⟨_, h, rfl⟩
  have hperm := (List.perm_ext_iff_of_nodup (nodup_slotAt W _ _) (nodup_slotAt W' _ _)).mpr hmem
  have hinOrder : (slotAt p.groups i (j + δ)).Pairwise
      fun a b => p.startOf a < p.startOf b := by
    unfold slotAt
    cases hg : p.groups.get? i with
    | none => exact .nil
    | some g =>
      rw [Option.bind_some]
      cases hl : OrdMap.get? g (j + δ) with
      | none => exact .nil
      | some l => exact C.inOrder _ (OrdMap.get?_eq_some.mp hg) _ (OrdMap.get?_eq_some.mp hl)
  have hsorted : (slotAt q.groups i j).Pairwise fun a b => p.startOf a ≤ p.startOf b := by
    rw [hgroups, slotAt_foldl_enqueue]
    refine List.pairwise_map.mpr (((pairwise_activeByStart q.flows).sublist
      List.filter_sublist).imp_of_mem fun {a b} ha hb hab => ?_)
    have hstart : ∀ e ∈ activeByStart q.flows, p.startOf e.1 = e.2.s + δ := by
      intro e he
      obtain ⟨hlookup, hb⟩ := mem_activeByStart.mp he
      rw [hflows, Map.lookup_mapValues] at hlookup
      obtain ⟨flow, hflow, heq⟩ := Option.map_eq_some_iff.mp hlookup
      rw [← heq] at hb ⊢
      have := (C.ahead_of hδ hflow hb).1
      rw [startOf_eq hflow]
      exact (Nat.sub_add_cancel this).symm
    rw [hstart a (List.mem_filter.mp ha).1, hstart b (List.mem_filter.mp hb).1]
    exact Nat.add_le_add_right hab _
  refine hperm.eq_of_pairwise (fun a b ha hb hab hba => ?_)
    (hinOrder.imp fun h => Nat.le_of_lt h) hsorted
  have hb := hperm.mem_iff.mpr hb
  by_contra hne
  have hdiff : (slotAt p.groups i (j + δ)).Pairwise
      fun a b => p.startOf a ≠ p.startOf b := hinOrder.imp fun h => Nat.ne_of_lt h
  have hsymm : Std.Symm fun a b : K => p.startOf a ≠ p.startOf b := ⟨fun _ _ h => h.symm⟩
  exact hdiff.forall ha hb hne (Nat.le_antisymm hab hba)

end Clean

/-- A clean rebase is one more step back. -/
theorem Shifted.maybeRebase {δ : Nat} (S : Shifted δ q p) (W : q.Wf)
    (C : rebaseAt ≤ q.v → Clean q) : ∃ δ', Shifted δ' q.maybeRebase p := by
  obtain ⟨h, -⟩ | ⟨hle, hv, hwsum, hflows⟩ := maybeRebase_cases q
  · exact ⟨δ, h.symm ▸ S⟩
  obtain ⟨d, hd⟩ : ∃ d, q.v - rebaseTo = d := ⟨_, rfl⟩
  have hC := C hle
  have hclock : q.v = rebaseTo + d := by
    have : rebaseTo ≤ q.v := Nat.le_trans (by decide) hle
    omega
  rw [hd] at hflows
  refine ⟨d + δ, ?_, S.wsum.trans hwsum.symm, ?_, fun k => ?_⟩
  · rw [hv, S.v, hclock, Nat.add_assoc]
  · rw [S.groups, hC.groups hd W hle, shiftGroups, shiftGroups, shiftGroups,
      OrdMap.mapValues_mapValues]
    exact congrArg (OrdMap.mapValues · _) (funext fun g => OrdMap.shiftKeys_shiftKeys ..)
  · rw [hflows, hv, Map.lookup_mapValues]
    rcases S.cases_lookup k with ⟨hq, hp⟩ | ⟨a, b, hq, hp, h⟩
    · rw [hq, hp]
      exact .none
    · rw [hq, hp]
      exact .some (h.shift hclock (hC.aligned_of hd hq) (hC.ahead_of hd hq))

theorem Wf.call (W : q.Wf) (c : Call K) : (q.call c).1.Wf := by
  cases c with
  | peek => exact W.peek
  | activate k headLen => exact W.activate k _
  | deactivate k => exact W.deactivate k
  | served k len nextLen => exact W.served k _ _

theorem Shifted.activate {δ : Nat} {headLen : UInt32} (S : Shifted δ q p) (W : q.Wf)
    (R : Regular q (.activate k headLen)) :
    ∃ δ', Shifted δ' (q.activate k headLen.toNat) (Unbounded.activate p k headLen.toNat) := by
  obtain ⟨hfits, hclean⟩ := R
  rcases S.cases_lookup k with ⟨hq, hp⟩ | ⟨a, b, hq, hp, h⟩
  · unfold Qfq.activate Unbounded.activate
    rw [hq, hp]
    exact ⟨δ, S⟩
  cases hb : a.backlogged with
  | true =>
    unfold Qfq.activate Unbounded.activate
    rw [hq, hp]
    dsimp only
    rw [h.backlogged, hb]
    exact ⟨δ, S⟩
  | false =>
    have hfits : max a.f q.v + headLen.toNat * a.invW < 2 ^ 64 := by
      simpa [fits, hq, hb] using hfits
    rw [activate_eq hq hb]
    exact (S.activated hp h hb hfits).maybeRebase (W.activated hq hb _) (hclean a hq hb)

theorem Shifted.served {δ : Nat} {len : UInt32} {nextLen : Option UInt32} (S : Shifted δ q p)
    (W : q.Wf) (R : Regular q (.served k len nextLen)) :
    ∃ δ', Shifted δ' (q.served k len.toNat (nextLen.map UInt32.toNat))
      (Unbounded.served p k len.toNat (nextLen.map UInt32.toNat)) := by
  obtain ⟨hfits, hclock, hclean⟩ := R
  rcases S.cases_lookup k with ⟨hq, hp⟩ | ⟨a, b, hq, hp, h⟩
  · unfold Qfq.served Unbounded.served
    rw [hq, hp]
    exact ⟨δ, S⟩
  cases hb : a.backlogged with
  | false =>
    unfold Qfq.served Unbounded.served
    rw [hq, hp]
    dsimp only
    rw [h.backlogged, hb]
    exact ⟨δ, S⟩
  | true =>
    have hfits : ∀ n, nextLen.map UInt32.toNat = some n → a.f + n * a.invW < 2 ^ 64 := by
      rintro n hn
      obtain ⟨m, rfl, rfl⟩ := Option.map_eq_some_iff.mp hn
      simpa [fits, hq, hb] using hfits
    have hclock : q.wsum = 0 ∨ q.v + len.toNat * oneFp / q.wsum < 2 ^ 64 := by
      simpa [clockFits, hq, hb] using hclock
    rw [served_eq hq hb]
    exact (S.advanced hp h hb hfits hclock).maybeRebase (W.advanced hq hb _ _) (hclean a hq hb)

/-- A regular call is answered alike, and leaves one state the other set back. -/
theorem Shifted.call {δ : Nat} {c : Call K} (S : Shifted δ q p) (W : q.Wf) (R : Regular q c) :
    (Unbounded.call p c).2 = (q.call c).2 ∧
      ∃ δ', Shifted δ' (q.call c).1 (Unbounded.call p c).1 := by
  cases c with
  | peek =>
    obtain ⟨hanswer, S'⟩ := S.peek R
    exact ⟨hanswer, δ, S'⟩
  | activate k headLen => exact ⟨rfl, S.activate W R⟩
  | deactivate k => exact ⟨rfl, δ, S.deactivate k⟩
  | served k len nextLen => exact ⟨rfl, S.served W R⟩

theorem Shifted.answers {δ : Nat} {calls : List (Call K)} {answers : List (Option K)}
    (S : Shifted δ q p) (W : q.Wf) (H : Answers q calls answers) :
    Unbounded.answers p calls = answers := by
  induction H generalizing p δ with
  | nil => rfl
  | cons hre hregular _ ih =>
    obtain ⟨hanswer, δ', S'⟩ := (S.reordered hre).call (W.reordered hre) hregular
    rw [Unbounded.answers, hanswer, ih S' ((W.reordered hre).call _)]

end Qfq

namespace Sample
open Qfq

def soloFlow (lmax s f headLen : Nat) : Flow :=
  { weight := 1, invW := 2 ^ 20, s, f, backlogged := false, headLen
    group := groupIndex lmax (2 ^ 20) }

/-- One flow, which has nothing to send. -/
def solo (lmax s f headLen v : Nat) : Qfq Nat :=
  ⟨(∅ : Map Nat Flow).insert 0 (soloFlow lmax s f headLen), .empty, v, 1⟩

/-- It gets something to send when all it sent before has passed. -/
def resumed (lmax f n : Nat) : Qfq Nat := (solo lmax 0 f 0 f).activated 0 (soloFlow lmax 0 f 0) n

end Sample

namespace Qfq
open Sample

theorem activated_solo {lmax s f headLen v : Nat} (hv : v ≤ f) (n : Nat) :
    (solo lmax s f headLen v).activated 0 (soloFlow lmax s f headLen) n = resumed lmax f n := by
  have hflow : (soloFlow lmax s f headLen).activated v n = (soloFlow lmax 0 f 0).activated f n := by
    simp only [Flow.activated, soloFlow, max_eq_left hv, max_self]
  unfold resumed Qfq.activated
  simp only [solo, AList.insert_insert, hflow]
  simp only [soloFlow, max_eq_left hv, max_eq_right hv, max_self]
  rfl

/-- A flow that comes and goes alone. -/
theorem reached_solo {l n : UInt32} {f : Nat} (m : Nat) (hl : 1 ≤ l.toNat)
    (hf : m * (n.toNat * 2 ^ 20) = f) (hm : f < 2 ^ 62 + n.toNat * 2 ^ 20) :
    ∃ s headLen v, v ≤ f ∧
      reached (.addFlow 0 1 l :: rounds 0 n m) = some (solo l.toNat s f headLen v) := by
  have hn := n.toNat_lt
  have hstart : apply new (.addFlow 0 1 l) = some (solo l.toNat 0 0 0 0) := by
    rw [apply, if_neg (by decide)]
    simp only [addFlow, max_eq_left hl]
    rfl
  obtain ⟨s, headLen, v, hrun, hle, -⟩ := run_rounds (⟨∅, .empty, 0, 1⟩ : Qfq Nat) 0
    (soloFlow l.toNat 0 0 0) n rfl rfl (Nat.le_refl 0) rfl m
    (by simp only [soloFlow]; omega) (.inr (by simp only [soloFlow, rebaseAt]; omega))
  simp only [soloFlow, Nat.zero_add, hf] at hrun hle
  refine ⟨s, headLen, v, hle, ?_⟩
  rw [reached, Automaton.run_cons, hstart]
  exact hrun

end Qfq

namespace Sample
open Qfq

/-- A flow that has resumed waits in a slot with two others, of which the second started first. -/
def crowded : Qfq Nat :=
  (((((((resumed (2 ^ 32 - 1) (2 ^ 62 - 2 ^ 30) 3072).addFlow 1 1 (2 ^ 32 - 1)).activate 1 1).deactivate
    1).activate 1 1).addFlow 2 1 (2 ^ 32 - 1)).activate 2 1).peek.1

/-- It has sent, and a rebase is due. -/
def overdue : Qfq Nat :=
  (crowded.flows.lookup 0).elim crowded fun flow => crowded.advanced 0 flow 3072 none

end Sample

namespace Qfq
open Sample

theorem reached_crowded : ∃ ops, reached ops = some crowded := by
  obtain ⟨s, headLen, v, hle, hreached⟩ := @reached_solo (UInt32.ofNat (2 ^ 32 - 1))
    (UInt32.ofNat (2 ^ 32 - 1)) (2 ^ 62 - 2 ^ 30) 1024 (by decide) (by decide) (by decide)
  have hresumed : (solo (2 ^ 32 - 1) s (2 ^ 62 - 2 ^ 30) headLen v).activate 0 3072 =
      resumed (2 ^ 32 - 1) (2 ^ 62 - 2 ^ 30) 3072 := by
    rw [activate_eq (AList.lookup_insert _) rfl, activated_solo hle]
    exact if_pos (by decide +kernel)
  refine ⟨(.addFlow 0 1 (UInt32.ofNat (2 ^ 32 - 1)) ::
    rounds 0 (UInt32.ofNat (2 ^ 32 - 1)) 1024) ++ [.activate 0 3072,
      .addFlow 1 1 (UInt32.ofNat (2 ^ 32 - 1)), .activate 1 1, .deactivate 1, .activate 1 1,
      .addFlow 2 1 (UInt32.ofNat (2 ^ 32 - 1)), .activate 2 1, .peek], ?_⟩
  have hfirst : apply (solo (UInt32.ofNat (2 ^ 32 - 1)).toNat s (2 ^ 62 - 2 ^ 30) headLen v)
      (.activate 0 3072) = some (resumed (2 ^ 32 - 1) (2 ^ 62 - 2 ^ 30) 3072) :=
    congrArg some hresumed
  rw [reached, Automaton.run_append, ← reached, hreached, Option.bind_some, Automaton.run_cons,
    hfirst]
  rfl

end Qfq

end TunnelWeaver.Mux
