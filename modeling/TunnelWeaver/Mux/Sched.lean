import TunnelWeaver.Lib.Map
import TunnelWeaver.Mux.Stream

/-! The two-level QFQ scheduling tree (`sched/qfq.rs`, `sched/mod.rs`): classes at the top, streams
inside each data class, and a FIFO of control frames as the control class's backlog.

Timestamps are 64-bit and wrap, as unchecked `u64` arithmetic does. `Qfq.Active` is the set of
flows an instance can still pick; every operation but `activate` only shrinks it, which is all the
protocol proofs need to know about the schedule. -/

namespace TunnelWeaver.Mux

/-! ## One level -/

def oneFp : Nat := 2 ^ 20
def minSlotShift : Nat := 6
def maxIndex : Nat := 56
def rebaseAt : Nat := 2 ^ 62
def rebaseTo : Nat := 2 ^ 40
def u64Max : Nat := 2 ^ 64 - 1

/-- Unchecked `u64` arithmetic. -/
def wrap64 (n : Nat) : Nat := n % 2 ^ 64

structure Flow where
  weight : Nat
  invW : Nat
  s : Nat
  f : Nat
  backlogged : Bool
  headLen : Nat
  group : Nat

def roundDown (ts shift : Nat) : Nat := (ts >>> shift) <<< shift

def ceilLog2 (x : Nat) : Nat := if x ≤ 1 then 0 else Nat.log2 (x - 1) + 1

def groupIndex (lmax invW : Nat) : Nat :=
  min (ceilLog2 (min (lmax * invW) u64Max) - minSlotShift) maxIndex

/-- The slot a flow of group `group` with virtual start `s` waits in. -/
def slotKey (s group : Nat) : Nat := roundDown s (group + minSlotShift)

/-- Flows bucketed by rounded virtual start; the first key is the group start time. -/
abbrev Group (K : Type) := OrdMap (List K)

namespace Group
variable {K : Type}

def start (g : Group K) : Option Nat := g.entries.head?.map (·.1)

def finish (g : Group K) (shift : Nat) : Option Nat := (start g).map fun s => wrap64 (s + wrap64 (2 * 2 ^ shift))

def insert (g : Group K) (key : Nat) (k : K) : Group K :=
  g.alter key fun q => some (q.getD [] ++ [k])

/-- Take `k` out of a slot, dropping the slot with its last flow. -/
def eraseSlot [DecidableEq K] (k : K) (q : Option (List K)) : Option (List K) :=
  match q with
  | none => none
  | some q => if (q.erase k).isEmpty then none else some (q.erase k)

def remove [DecidableEq K] (g : Group K) (key : Nat) (k : K) : Group K := g.alter key (eraseSlot k)

/-- A flow waiting in some slot of the group. -/
def Holds (g : Group K) (k : K) : Prop := ∃ e ∈ g.entries, k ∈ e.2

theorem Holds.of_insert {g : Group K} {key : Nat} {k k' : K} (h : Holds (insert g key k') k) :
    Holds g k ∨ k = k' := by
  obtain ⟨e, he, hk⟩ := h
  rcases OrdMap.mem_alterEntries he with he | ⟨_, h | ⟨q, hq, h⟩⟩
  · exact .inl ⟨e, he, hk⟩
  · simp only [Option.getD_none, List.nil_append, Option.some.injEq] at h
    rw [← h] at hk
    exact .inr (List.mem_singleton.mp hk)
  · simp only [Option.getD_some, Option.some.injEq] at h
    rw [← h] at hk
    rcases List.mem_append.mp hk with hk | hk
    · exact .inl ⟨_, hq, hk⟩
    · exact .inr (List.mem_singleton.mp hk)

theorem mem_of_eraseSlot [DecidableEq K] {k k' : K} {q : List K} {q' : List K}
    (h : eraseSlot k' (some q) = some q') (hk : k ∈ q') : k ∈ q := by
  simp only [eraseSlot] at h
  split at h
  · cases h
  · cases h; exact List.mem_of_mem_erase hk

theorem Holds.of_remove [DecidableEq K] {g : Group K} {key : Nat} {k k' : K} (h : Holds (remove g key k') k) :
    Holds g k := by
  obtain ⟨e, he, hk⟩ := h
  rcases OrdMap.mem_alterEntries he with he | ⟨_, h | ⟨q, hq, h⟩⟩
  · exact ⟨e, he, hk⟩
  · cases h
  · exact ⟨_, hq, mem_of_eraseSlot h hk⟩

end Group

structure Qfq (K : Type) where
  flows : Map K Flow
  groups : OrdMap (Group K)
  v : Nat
  wsum : Nat

namespace Qfq
variable {K : Type} [DecidableEq K]

def new : Qfq K := ⟨∅, .empty, 0, 0⟩

def hasBacklog (q : Qfq K) : Bool := !q.groups.isEmpty

def addFlow (q : Qfq K) (k : K) (weight lmax : Nat) : Qfq K :=
  let weight := max weight 1
  let invW := oneFp / weight
  { q with
    wsum := wrap64 (q.wsum + weight)
    flows := q.flows.insert k
      { weight, invW, s := 0, f := 0, backlogged := false, headLen := 0
        group := groupIndex (max lmax 1) invW } }

/-- Drop a group with its last slot. -/
def keepGroup (g : Group K) : Option (Group K) := if g.isEmpty then none else some g

/-- Take `k` out of slot `key` of group `group`, and put it into slot `key'` if given. -/
def moveSlot (k : K) (key : Nat) (key' : Option Nat) (g : Option (Group K)) : Option (Group K) :=
  match g with
  | none => none
  | some g =>
    let g := g.remove key k
    keepGroup (match key' with
      | some key' => g.insert key' k
      | none => g)

/-- The flow has nothing to send; its `f` is kept. -/
def deactivate (q : Qfq K) (k : K) : Qfq K :=
  match q.flows.lookup k with
  | none => q
  | some flow =>
    if !flow.backlogged then q
    else
      { q with
        flows := q.flows.insert k { flow with backlogged := false }
        groups := q.groups.alter flow.group
          (moveSlot k (slotKey flow.s flow.group) none) }

/-- Forget a flow, deactivating it first if needed. -/
def removeFlow (q : Qfq K) (k : K) : Qfq K :=
  let q := q.deactivate k
  match q.flows.lookup k with
  | none => q
  | some flow => { q with flows := q.flows.erase k, wsum := wrap64 (q.wsum + (2 ^ 64 - flow.weight)) }

/-- Put a flow into its slot, opening its group if needed. -/
def enqueue (groups : OrdMap (Group K)) (k : K) (flow : Flow) : OrdMap (Group K) :=
  groups.alter flow.group fun g =>
    some (Group.insert (g.getD .empty) (slotKey flow.s flow.group) k)

/-- Shift a flow's timestamps down. -/
def Flow.shift (delta : Nat) (flow : Flow) : Flow :=
  { flow with s := flow.s - delta, f := flow.f - delta }

theorem Flow.shift_backlogged (delta : Nat) (flow : Flow) :
    (Flow.shift delta flow).backlogged = flow.backlogged := rfl

/-- The backlogged flows in the iteration order of the table, sorted by start time. -/
def activeByStart (flows : Map K Flow) : List (K × Flow) :=
  ((flows.entries.map fun e => (e.1, e.2)).filter fun e => e.2.backlogged).insertionSort
    fun a b => a.2.s ≤ b.2.s

/-- Shift every timestamp down once `v` has grown large. -/
def maybeRebase (q : Qfq K) : Qfq K :=
  if q.v < rebaseAt then q
  else
    let flows := q.flows.mapValues (Flow.shift (q.v - rebaseTo))
    { q with
      v := rebaseTo
      flows := flows
      groups := (activeByStart flows).foldl (fun groups e => enqueue groups e.1 e.2) .empty }

/-- The flow has a packet of `headLen` bytes to send; no effect if it is already backlogged. -/
def activate (q : Qfq K) (k : K) (headLen : Nat) : Qfq K :=
  match q.flows.lookup k with
  | none => q
  | some flow =>
    if flow.backlogged then q
    else
      let s := max flow.f q.v
      let flow := { flow with s, f := wrap64 (s + headLen * flow.invW), backlogged := true, headLen }
      maybeRebase
        { q with
          flows := q.flows.insert k flow
          v := if q.groups.isEmpty then max q.v s else q.v
          groups := enqueue q.groups k flow }

/-- One group of the selection walk: the smallest finish time among the eligible coarser groups,
and the lowest ready index so far. -/
def pickStep (v : Nat) (acc : Nat × Option Nat) (e : Nat × Group K) : Nat × Option Nat :=
  match Group.start e.2, Group.finish e.2 (e.1 + minSlotShift) with
  | some s, some f => if v < s then acc else if f ≤ acc.1 then (f, some e.1) else acc
  | _, _ => acc

/-- The virtual time after the work-conserving jump of a pick. -/
def jumpV (q : Qfq K) : Nat :=
  let starts := q.groups.entries.filterMap fun e => Group.start e.2
  if starts.any (· ≤ q.v) then q.v
  else match starts.min? with
    | some s => max q.v s
    | none => q.v

/-- The lowest-index group that is eligible and ready. -/
def pickGroup (q : Qfq K) : Qfq K × Option Nat :=
  if q.groups.isEmpty then (q, none)
  else
    let q := { q with v := q.jumpV }
    (q, (q.groups.entries.reverse.foldl (pickStep q.v) (u64Max, none)).2)

/-- The flow that would be served next. -/
def peek (q : Qfq K) : Qfq K × Option K :=
  let r := q.pickGroup
  (r.1, r.2.bind fun idx => (r.1.groups.get? idx).bind fun g =>
    g.entries.head?.bind fun slot => slot.2.head?)

/-- Length of the packet `peek` would serve. -/
def nextHeadLen (q : Qfq K) : Qfq K × Option Nat :=
  let r := q.peek
  (r.1, r.2.bind fun k => (r.1.flows.lookup k).map (·.headLen))

/-- Account for `len` bytes served from flow `k`; `nextLen` is its following packet. -/
def served (q : Qfq K) (k : K) (len : Nat) (nextLen : Option Nat) : Qfq K :=
  match q.flows.lookup k with
  | none => q
  | some flow =>
    if !flow.backlogged then q
    else
      let s := flow.f
      let flow' := match nextLen with
        | some n => { flow with s, f := wrap64 (s + n * flow.invW), headLen := n }
        | none => { flow with s, backlogged := false, headLen := 0 }
      maybeRebase
        { q with
          flows := q.flows.insert k flow'
          groups := q.groups.alter flow.group (moveSlot k (slotKey flow.s flow.group)
            (nextLen.map fun _ => slotKey s flow.group))
          v := if q.wsum = 0 then q.v else wrap64 (q.v + len * oneFp / q.wsum) }

/-! ## What an instance can still pick -/

/-- A flow waiting in a group, or marked backlogged. -/
def Active (q : Qfq K) (k : K) : Prop :=
  (∃ e ∈ q.groups.entries, Group.Holds e.2 k) ∨
    ∃ flow, q.flows.lookup k = some flow ∧ flow.backlogged = true

theorem not_active_new (k : K) : ¬Active (new : Qfq K) k := by
  rintro (⟨e, he, _⟩ | ⟨flow, h, _⟩)
  · cases he
  · cases h

theorem holds_of_moveSlot {k k' : K} {key : Nat} {key' : Option Nat} {g g' : Group K}
    (h : moveSlot k' key key' (some g) = some g') (hk : Group.Holds g' k) :
    Group.Holds g k ∨ (key'.isSome ∧ k = k') := by
  cases key' with
  | none =>
    simp only [moveSlot, keepGroup] at h
    split at h
    · cases h
    · cases h
      exact .inl hk.of_remove
  | some key' =>
    simp only [moveSlot, keepGroup] at h
    split at h
    · cases h
    · cases h
      rcases hk.of_insert with hk | hk
      · exact .inl hk.of_remove
      · exact .inr ⟨rfl, hk⟩

omit [DecidableEq K] in
theorem holds_of_enqueue {groups : OrdMap (Group K)} {k k' : K} {flow : Flow}
    {e : Nat × Group K} (he : e ∈ (enqueue groups k' flow).entries) (hk : Group.Holds e.2 k) :
    (∃ e ∈ groups.entries, Group.Holds e.2 k) ∨ k = k' := by
  rcases OrdMap.mem_alterEntries he with he | ⟨_, h | ⟨g, hg, h⟩⟩
  · exact .inl ⟨e, he, hk⟩
  · simp only [Option.getD_none, Option.some.injEq] at h
    rw [← h] at hk
    rcases hk.of_insert with ⟨_, h, _⟩ | hk
    · cases h
    · exact .inr hk
  · simp only [Option.getD_some, Option.some.injEq] at h
    rw [← h] at hk
    rcases hk.of_insert with hk | hk
    · exact .inl ⟨_, hg, hk⟩
    · exact .inr hk

omit [DecidableEq K] in
theorem holds_of_foldl_enqueue {l : List (K × Flow)} {groups : OrdMap (Group K)} {k : K}
    (h : ∃ e ∈ (l.foldl (fun groups e => enqueue groups e.1 e.2) groups).entries,
      Group.Holds e.2 k) :
    (∃ e ∈ groups.entries, Group.Holds e.2 k) ∨ ∃ flow, (k, flow) ∈ l := by
  induction l generalizing groups with
  | nil => exact .inl h
  | cons p l ih =>
    obtain ⟨k', flow⟩ := p
    rcases ih h with ⟨e, he, hk⟩ | ⟨flow, h⟩
    · rcases holds_of_enqueue he hk with h | rfl
      · exact .inl h
      · exact .inr ⟨flow, by simp⟩
    · exact .inr ⟨flow, List.mem_cons_of_mem _ h⟩

theorem Active.of_maybeRebase {q : Qfq K} {k : K} (h : Active q.maybeRebase k) : Active q k := by
  unfold maybeRebase at h
  split at h
  · exact h
  · have hback : ∀ {flow}, (q.flows.mapValues (Flow.shift (q.v - rebaseTo))).lookup k = some flow →
        flow.backlogged = true → Active q k := by
      intro flow hflow hb
      rw [Map.lookup_mapValues, Option.map_eq_some_iff] at hflow
      obtain ⟨flow', hflow', rfl⟩ := hflow
      rw [Flow.shift_backlogged] at hb
      exact .inr ⟨flow', hflow', hb⟩
    rcases h with h | ⟨flow, hflow, hb⟩
    · rcases holds_of_foldl_enqueue h with ⟨e, he, _⟩ | ⟨flow, hmem⟩
      · cases he
      · rw [activeByStart, List.mem_insertionSort, List.mem_filter, List.mem_map] at hmem
        obtain ⟨⟨e, he, heq⟩, hb⟩ := hmem
        obtain ⟨k', flow'⟩ := e
        cases heq
        exact hback (Map.lookup_of_mem he) hb
    · exact hback hflow hb

theorem Active.of_deactivate {q : Qfq K} {k : K} (k' : K) (h : Active (q.deactivate k') k) :
    Active q k := by
  unfold deactivate at h
  split at h
  · exact h
  · split at h
    · exact h
    · rcases h with ⟨e, he, hk⟩ | ⟨flow, hl, hb⟩
      · rcases OrdMap.mem_alterEntries he with he | ⟨_, h | ⟨g, hg, h⟩⟩
        · exact .inl ⟨e, he, hk⟩
        · cases h
        · rcases holds_of_moveSlot h hk with hk | ⟨hn, _⟩
          · exact .inl ⟨_, hg, hk⟩
          · cases hn
      · simp only [Map.lookup_insert_ite] at hl
        split at hl
        · cases hl; cases hb
        · exact .inr ⟨flow, hl, hb⟩

theorem Active.of_removeFlow {q : Qfq K} {k k' : K} (h : Active (q.removeFlow k') k) :
    Active q k := by
  refine Active.of_deactivate k' ?_
  unfold removeFlow at h
  revert h
  generalize q.deactivate k' = q
  intro h
  dsimp only at h
  split at h
  · exact h
  · rcases h with h | ⟨flow, hl, hb⟩
    · exact .inl h
    · rw [Map.lookup_erase_ite] at hl
      split at hl
      · cases hl
      · exact .inr ⟨flow, hl, hb⟩

theorem Active.of_addFlow {q : Qfq K} {k k' : K} {weight lmax : Nat}
    (h : Active (q.addFlow k' weight lmax) k) : Active q k := by
  rcases h with h | ⟨flow, hl, hb⟩
  · exact .inl h
  · simp only [addFlow, Map.lookup_insert_ite] at hl
    split at hl
    · cases hl; cases hb
    · exact .inr ⟨flow, hl, hb⟩

theorem Active.of_activate {q : Qfq K} {k k' : K} {len : Nat} (h : Active (q.activate k' len) k) :
    Active q k ∨ k = k' := by
  unfold activate at h
  split at h
  · exact .inl h
  · split at h
    · exact .inl h
    · rcases Active.of_maybeRebase h with ⟨e, he, hk⟩ | ⟨flow, hl, hb⟩
      · rcases holds_of_enqueue he hk with h | h
        · exact .inl (.inl h)
        · exact .inr h
      · simp only [Map.lookup_insert_ite] at hl
        split at hl
        · rename_i hk; exact .inr hk
        · exact .inl (.inr ⟨flow, hl, hb⟩)

theorem Active.of_served {q : Qfq K} {k k' : K} {len : Nat} {nextLen : Option Nat}
    (h : Active (q.served k' len nextLen) k) : Active q k := by
  unfold served at h
  split at h
  · exact h
  · rename_i flow hflow
    split at h
    · exact h
    · rename_i hb'
      have hself : k = k' → Active q k := by
        rintro rfl
        exact .inr ⟨flow, hflow, by simpa using hb'⟩
      rcases Active.of_maybeRebase h with ⟨e, he, hk⟩ | ⟨flow, hl, hb⟩
      · rcases OrdMap.mem_alterEntries he with he | ⟨_, h | ⟨g, hg, h⟩⟩
        · exact .inl ⟨e, he, hk⟩
        · cases h
        · rcases holds_of_moveSlot h hk with hk | ⟨_, hk⟩
          · exact .inl ⟨_, hg, hk⟩
          · exact hself hk
      · simp only [Map.lookup_insert_ite] at hl
        split at hl
        · rename_i hk; exact hself hk
        · exact .inr ⟨flow, hl, hb⟩

omit [DecidableEq K] in
theorem peek_groups (q : Qfq K) : q.peek.1.groups = q.groups := by
  unfold peek pickGroup
  split <;> rfl

omit [DecidableEq K] in
theorem peek_flows (q : Qfq K) : q.peek.1.flows = q.flows := by
  unfold peek pickGroup
  split <;> rfl

theorem active_peek {q : Qfq K} {k : K} : Active q.peek.1 k ↔ Active q k := by
  simp only [Active, peek_groups, peek_flows]

/-- What `peek` names is a flow the instance holds. -/
theorem Active.of_peek {q : Qfq K} {k : K} (h : q.peek.2 = some k) : Active q k := by
  rw [← active_peek]
  unfold peek at h ⊢
  simp only [Option.bind_eq_some_iff] at h
  obtain ⟨idx, _, g, hg, slot, hslot, hk⟩ := h
  simp only [OrdMap.get?, Option.map_eq_some_iff] at hg
  obtain ⟨e, he, rfl⟩ := hg
  exact .inl ⟨e, List.mem_of_find?_eq_some he, slot, List.mem_of_mem_head? hslot,
    List.mem_of_mem_head? hk⟩

end Qfq

/-! ## The tree -/

inductive Pick where
  | control
  | stream (id : StreamId)
  deriving DecidableEq

/-- `inner` is indexed by the three data classes; the entry of `Class.control` is never used. -/
structure SchedTree where
  top : Qfq Class
  inner : Class → Qfq StreamId
  control : List Frame
  maxFrame : Nat

namespace SchedTree

def new (weights : Weights) (maxFrame : Nat) : SchedTree :=
  let lmax := asU32 (maxFrame + Frame.headerLen)
  { top := (((Qfq.new.addFlow .control weights.control lmax).addFlow .realtime weights.realtime
      lmax).addFlow .interactive weights.interactive lmax).addFlow .bulk weights.bulk lmax
    inner := fun _ => .new
    control := []
    maxFrame := lmax }

/-- Replace the inner scheduler of one class. -/
def setInner (t : SchedTree) (cls : Class) (q : Qfq StreamId) : SchedTree :=
  { t with inner := fun c => if c = cls then q else t.inner c }

/-- Queue a control frame; it becomes the control flow's backlog. -/
def pushControl (t : SchedTree) (frame : Frame) : SchedTree :=
  { t with
    control := t.control ++ [frame]
    top := t.top.activate .control (asU32 frame.wireLen) }

def clearControl (t : SchedTree) : SchedTree :=
  { t with control := [], top := t.top.deactivate .control }

def addStream (t : SchedTree) (id : StreamId) (cls : Class) : SchedTree :=
  t.setInner cls ((t.inner cls).addFlow id 1 t.maxFrame)

def removeStream (t : SchedTree) (id : StreamId) (cls : Class) : SchedTree :=
  let inner := (t.inner cls).removeFlow id
  let t := t.setInner cls inner
  if inner.hasBacklog then t else { t with top := t.top.deactivate cls }

def activateStream (t : SchedTree) (id : StreamId) (cls : Class) (headLen : Nat) : SchedTree :=
  let wasIdle := !(t.inner cls).hasBacklog
  let inner := (t.inner cls).activate id headLen
  if wasIdle then
    let r := inner.nextHeadLen
    let t := t.setInner cls r.1
    { t with top := t.top.activate cls (r.2.getD headLen) }
  else t.setInner cls inner

/-- Move a stream between classes. -/
def reclass (t : SchedTree) (id : StreamId) (src dst : Class) (headLen : Option Nat) :
    SchedTree :=
  if src = dst then t
  else
    let t := (t.removeStream id src).addStream id dst
    match headLen with
    | some len => t.activateStream id dst len
    | none => t

def hasBacklog (t : SchedTree) : Bool := t.top.hasBacklog

/-- Choose what to send next, without consuming anything. -/
def pick (t : SchedTree) : SchedTree × Option Pick :=
  let r := t.top.peek
  let t := { t with top := r.1 }
  match r.2 with
  | none => (t, none)
  | some .control => (t, some .control)
  | some cls =>
    let r := (t.inner cls).peek
    (t.setInner cls r.1, r.2.map .stream)

def popControl (t : SchedTree) : SchedTree × Option Frame :=
  match t.control with
  | [] => (t, none)
  | frame :: rest => ({ t with control := rest }, some frame)

/-- Account for `len` wire bytes just sent. -/
def served (t : SchedTree) (pick : Pick) (cls : Class) (len : Nat) (nextLen : Option Nat) :
    SchedTree :=
  match pick with
  | .control =>
    { t with top := t.top.served .control len (t.control.head?.map fun f => asU32 f.wireLen) }
  | .stream id =>
    let r := ((t.inner cls).served id len nextLen).nextHeadLen
    let t := t.setInner cls r.1
    { t with top := t.top.served cls len r.2 }

/-- A stream some data class may still pick. -/
def Active (t : SchedTree) (id : StreamId) : Prop := ∃ cls, (t.inner cls).Active id

/-! ### Effect of the operations on the control queue and on what may be picked -/

theorem not_active_new (weights : Weights) (maxFrame : Nat) (id : StreamId) :
    ¬(new weights maxFrame).Active id := by
  rintro ⟨_, h⟩
  exact Qfq.not_active_new _ h

theorem Active.of_setInner {t : SchedTree} {cls : Class} {q : Qfq StreamId} {id : StreamId}
    (h : (t.setInner cls q).Active id) : q.Active id ∨ t.Active id := by
  obtain ⟨c, h⟩ := h
  simp only [setInner] at h
  split at h
  · exact .inl h
  · exact .inr ⟨c, h⟩

@[simp] theorem control_pushControl (t : SchedTree) (f : Frame) :
    (t.pushControl f).control = t.control ++ [f] := rfl

@[simp] theorem control_clearControl (t : SchedTree) : t.clearControl.control = [] := rfl

@[simp] theorem control_addStream (t : SchedTree) (id : StreamId) (cls : Class) :
    (t.addStream id cls).control = t.control := rfl

@[simp] theorem control_removeStream (t : SchedTree) (id : StreamId) (cls : Class) :
    (t.removeStream id cls).control = t.control := by
  unfold removeStream; dsimp only; split <;> rfl

@[simp] theorem control_activateStream (t : SchedTree) (id : StreamId) (cls : Class) (len : Nat) :
    (t.activateStream id cls len).control = t.control := by
  unfold activateStream; dsimp only; split <;> rfl

@[simp] theorem control_reclass (t : SchedTree) (id : StreamId) (src dst : Class)
    (len : Option Nat) : (t.reclass id src dst len).control = t.control := by
  unfold reclass; split
  · rfl
  · cases len <;> simp

@[simp] theorem control_pick (t : SchedTree) : t.pick.1.control = t.control := by
  unfold pick; dsimp only; split <;> rfl

@[simp] theorem control_served (t : SchedTree) (pick : Pick) (cls : Class) (len : Nat)
    (next : Option Nat) : (t.served pick cls len next).control = t.control := by
  cases pick <;> rfl

theorem active_pushControl {t : SchedTree} {f : Frame} {id : StreamId} :
    (t.pushControl f).Active id ↔ t.Active id := .rfl

theorem active_clearControl {t : SchedTree} {id : StreamId} :
    t.clearControl.Active id ↔ t.Active id := .rfl

theorem Active.of_addStream {t : SchedTree} {id id' : StreamId} {cls : Class}
    (h : (t.addStream id' cls).Active id) : t.Active id := by
  rcases h.of_setInner with h | h
  · exact ⟨cls, h.of_addFlow⟩
  · exact h

theorem Active.of_removeStream {t : SchedTree} {id id' : StreamId} {cls : Class}
    (h : (t.removeStream id' cls).Active id) : t.Active id := by
  have h : (t.setInner cls ((t.inner cls).removeFlow id')).Active id := by
    unfold removeStream at h
    dsimp only at h
    split at h <;> exact h
  rcases h.of_setInner with h | h
  · exact ⟨cls, h.of_removeFlow⟩
  · exact h

theorem Active.of_activateStream {t : SchedTree} {id id' : StreamId} {cls : Class} {len : Nat}
    (h : (t.activateStream id' cls len).Active id) : t.Active id ∨ id = id' := by
  have key : ∀ q : Qfq StreamId, (q.Active id → ((t.inner cls).activate id' len).Active id) →
      (t.setInner cls q).Active id → t.Active id ∨ id = id' := by
    intro q hq h
    rcases h.of_setInner with h | h
    · rcases (hq h).of_activate with h | h
      · exact .inl ⟨cls, h⟩
      · exact .inr h
    · exact .inl h
  unfold activateStream at h
  dsimp only at h
  split at h
  · exact key _ (fun h => Qfq.active_peek.mp h) h
  · exact key _ (fun h => h) h

theorem Active.of_reclass {t : SchedTree} {id id' : StreamId} {src dst : Class}
    {len : Option Nat} (h : (t.reclass id' src dst len).Active id) :
    t.Active id ∨ (len.isSome ∧ id = id') := by
  unfold reclass at h
  split at h
  · exact .inl h
  · cases len with
    | none => exact .inl h.of_addStream.of_removeStream
    | some len =>
      rcases h.of_activateStream with h | h
      · exact .inl h.of_addStream.of_removeStream
      · exact .inr ⟨rfl, h⟩

theorem Active.of_pick {t : SchedTree} {id : StreamId} (h : t.pick.1.Active id) : t.Active id := by
  unfold pick at h
  dsimp only at h
  split at h
  · exact h
  · exact h
  · rename_i cls _ _
    rcases h.of_setInner with h | h
    · exact ⟨cls, Qfq.active_peek.mp h⟩
    · exact h

/-- What `pick` names is a stream the tree holds. -/
theorem active_of_pick_stream {t : SchedTree} {id : StreamId}
    (h : t.pick.2 = some (.stream id)) : t.Active id := by
  unfold pick at h
  dsimp only at h
  split at h
  · cases h
  · cases h
  · rename_i cls _ _
    obtain ⟨id', hid, heq⟩ := Option.map_eq_some_iff.mp h
    cases heq
    exact ⟨cls, Qfq.Active.of_peek hid⟩

theorem Active.of_served {t : SchedTree} {id : StreamId} {pick : Pick} {cls : Class} {len : Nat}
    {next : Option Nat} (h : (t.served pick cls len next).Active id) : t.Active id := by
  cases pick with
  | control => exact h
  | stream id' =>
    rcases Active.of_setInner h with h | h
    · exact ⟨cls, (Qfq.active_peek.mp h).of_served⟩
    · exact h

end SchedTree

end TunnelWeaver.Mux
