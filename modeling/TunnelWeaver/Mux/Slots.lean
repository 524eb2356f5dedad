import TunnelWeaver.Lib.Automaton
import TunnelWeaver.Mux.Backlog

/-! One scheduler over a whole run. `Qfq.Op` are its operations. Whatever they are, a backlogged
flow waits once and where its timestamp says; that a flow starts before it finishes, and that the
weights sum up, holds as long as no addition leaves the 64-bit range. -/

namespace TunnelWeaver.Mux

/-! ## Operations before they look at the clock -/

/-- A flow that has `n` bytes to send after it had none. -/
def Flow.activated (flow : Flow) (v n : Nat) : Flow :=
  { flow with
    s := max flow.f v, f := wrap64 (max flow.f v + n * flow.invW), backlogged := true, headLen := n }

/-- A flow that was served. -/
def Flow.advanced (flow : Flow) (nextLen : Option Nat) : Flow :=
  match nextLen with
  | some n => { flow with s := flow.f, f := wrap64 (flow.f + n * flow.invW), headLen := n }
  | none => { flow with s := flow.f, backlogged := false, headLen := 0 }

namespace Qfq
variable {K : Type} [DecidableEq K]

def activated (q : Qfq K) (k : K) (flow : Flow) (n : Nat) : Qfq K :=
  { q with
    flows := q.flows.insert k (flow.activated q.v n)
    v := if q.groups.isEmpty then max q.v (max flow.f q.v) else q.v
    groups := enqueue q.groups k (flow.activated q.v n) }

def advanced (q : Qfq K) (k : K) (flow : Flow) (len : Nat) (nextLen : Option Nat) : Qfq K :=
  { q with
    flows := q.flows.insert k (flow.advanced nextLen)
    groups := q.groups.alter flow.group (moveSlot k (slotKey flow.s flow.group)
      (nextLen.map fun _ => slotKey flow.f flow.group))
    v := if q.wsum = 0 then q.v else wrap64 (q.v + len * oneFp / q.wsum) }

def withdrawn (q : Qfq K) (k : K) (flow : Flow) : Qfq K :=
  { q with
    flows := q.flows.insert k { flow with backlogged := false }
    groups := q.groups.alter flow.group (moveSlot k (slotKey flow.s flow.group) none) }

theorem activate_eq {q : Qfq K} {k : K} {flow : Flow} (hk : q.flows.lookup k = some flow)
    (hb : flow.backlogged = false) (n : Nat) :
    q.activate k n = (q.activated k flow n).maybeRebase := by
  simp only [activate, hk, hb, Bool.false_eq_true, if_false]
  rfl

theorem activate_cases (q : Qfq K) (k : K) (n : Nat) : q.activate k n = q ∨
    ∃ flow, q.flows.lookup k = some flow ∧ flow.backlogged = false ∧
      q.activate k n = (q.activated k flow n).maybeRebase := by
  cases hk : q.flows.lookup k with
  | none =>
    refine .inl ?_
    simp only [activate, hk]
  | some flow =>
    cases hb : flow.backlogged with
    | false => exact .inr ⟨flow, rfl, hb, activate_eq hk hb n⟩
    | true =>
      refine .inl ?_
      simp only [activate, hk, hb, if_true]

theorem served_eq {q : Qfq K} {k : K} {flow : Flow} (hk : q.flows.lookup k = some flow)
    (hb : flow.backlogged = true) (len : Nat) (nextLen : Option Nat) :
    q.served k len nextLen = (q.advanced k flow len nextLen).maybeRebase := by
  unfold served
  rw [hk]
  dsimp only
  rw [if_neg (by simp [hb])]
  cases nextLen <;> rfl

theorem served_cases (q : Qfq K) (k : K) (len : Nat) (nextLen : Option Nat) :
    q.served k len nextLen = q ∨
    ∃ flow, q.flows.lookup k = some flow ∧ flow.backlogged = true ∧
      q.served k len nextLen = (q.advanced k flow len nextLen).maybeRebase := by
  cases hk : q.flows.lookup k with
  | none =>
    refine .inl ?_
    simp only [served, hk]
  | some flow =>
    cases hb : flow.backlogged with
    | true => exact .inr ⟨flow, rfl, hb, served_eq hk hb len nextLen⟩
    | false =>
      refine .inl ?_
      simp only [served, hk, hb, Bool.not_false, if_true]

theorem deactivate_cases (q : Qfq K) (k : K) : q.deactivate k = q ∨
    ∃ flow, q.flows.lookup k = some flow ∧ flow.backlogged = true ∧
      q.deactivate k = q.withdrawn k flow := by
  unfold deactivate
  split
  · exact .inl rfl
  · rename_i flow hk
    split
    · exact .inl rfl
    · rename_i hb
      exact .inr ⟨flow, hk, by simpa using hb, rfl⟩

omit [DecidableEq K] in
/-- A rebase shifts every flow and the clock. -/
theorem maybeRebase_cases (q : Qfq K) : q.maybeRebase = q ∧ q.v < rebaseAt ∨
    rebaseAt ≤ q.v ∧ q.maybeRebase.v = rebaseTo ∧ q.maybeRebase.wsum = q.wsum ∧
      q.maybeRebase.flows = q.flows.mapValues (Flow.shift (q.v - rebaseTo)) := by
  unfold maybeRebase
  split
  · exact .inl ⟨rfl, ‹_›⟩
  · exact .inr ⟨Nat.le_of_not_lt ‹_›, rfl, rfl, rfl⟩

/-! ## Runs -/

/-- The operations of an instance. -/
inductive Op (K : Type) where
  | addFlow (k : K) (weight lmax : UInt32)
  | removeFlow (k : K)
  | activate (k : K) (headLen : UInt32)
  | deactivate (k : K)
  | served (k : K) (len : UInt32) (nextLen : Option UInt32)
  | peek

/-- One operation; only a key that is not registered is added. -/
def apply (q : Qfq K) : Op K → Option (Qfq K)
  | .addFlow k weight lmax =>
    if q.contains k then none else some (q.addFlow k weight.toNat lmax.toNat)
  | .removeFlow k => some (q.removeFlow k)
  | .activate k headLen => some (q.activate k headLen.toNat)
  | .deactivate k => some (q.deactivate k)
  | .served k len nextLen => some (q.served k len.toNat (nextLen.map UInt32.toNat))
  | .peek => some q.peek.1

/-- The instance that some operations lead to. -/
def reached (ops : List (Op K)) : Option (Qfq K) := Automaton.run apply new ops

variable {q q' : Qfq K} {k : K} {flow : Flow} {op : Op K} {ops : List (Op K)}

theorem Wf.apply (W : q.Wf) (H : q.apply op = some q') : q'.Wf := by
  cases op with
  | addFlow k weight lmax =>
    simp only [Qfq.apply] at H
    split at H
    · cases H
    · rename_i hk
      cases H
      exact W.addFlow _ _ (Bool.eq_false_iff.mpr hk)
  | removeFlow k =>
    cases H
    exact W.removeFlow k
  | activate k headLen =>
    cases H
    exact W.activate k _
  | deactivate k =>
    cases H
    exact W.deactivate k
  | served k len nextLen =>
    cases H
    exact W.served k _ _
  | peek =>
    cases H
    exact W.peek

theorem wf_reached (H : reached ops = some q) : q.Wf :=
  Automaton.run_invariant (p := fun _ => True) (fun W _ H => W.apply H) (fun _ _ => trivial)
    wf_new H

/-! ## Timestamps and weights -/

/-- The additions of an operation to a timestamp or to the sum of the weights stay below `2 ^ 64`. -/
def fits (q : Qfq K) : Op K → Bool
  | .addFlow _ weight _ => decide (q.wsum + max weight.toNat 1 < 2 ^ 64)
  | .activate k headLen => (q.flows.lookup k).all fun flow =>
    flow.backlogged || decide (max flow.f q.v + headLen.toNat * flow.invW < 2 ^ 64)
  | .served k _ nextLen => (q.flows.lookup k).all fun flow =>
    !flow.backlogged || nextLen.all fun n => decide (flow.f + n.toNat * flow.invW < 2 ^ 64)
  | _ => true

/-- The weights of the registered flows are summed up, and each flow starts before it finishes. -/
structure Exact (q : Qfq K) : Prop where
  wsum : q.wsum = Map.total Flow.weight q.flows
  small : q.wsum < 2 ^ 64
  ordered : ∀ k flow, q.flows.lookup k = some flow → flow.s ≤ flow.f

theorem exact_new : (new : Qfq K).Exact where
  wsum := rfl
  small := Nat.two_pow_pos 64
  ordered _ _ h := by cases h

theorem total_weight_insert {flows : Map K Flow} {flow flow' : Flow}
    (hk : flows.lookup k = some flow) (hw : flow'.weight = flow.weight) :
    Map.total Flow.weight (flows.insert k flow') = Map.total Flow.weight flows := by
  rw [Map.total_insert, Map.total_erase Flow.weight hk, hw]

/-- A flow that keeps its weight and still starts before it finishes. -/
theorem Exact.insert {groups : OrdMap (Group K)} {v : Nat} {flow' : Flow} (E : q.Exact)
    (hk : q.flows.lookup k = some flow) (hw : flow'.weight = flow.weight)
    (hle : flow'.s ≤ flow'.f) :
    Exact { q with flows := q.flows.insert k flow', groups, v } where
  wsum := E.wsum.trans (total_weight_insert hk hw).symm
  small := E.small
  ordered a flow₁ ha := by
    rw [Map.lookup_insert_ite] at ha
    split at ha
    · cases ha
      exact hle
    · exact E.ordered a flow₁ ha

omit [DecidableEq K] in
theorem total_weight_shift (flows : Map K Flow) (delta : Nat) :
    Map.total Flow.weight (flows.mapValues (Flow.shift delta)) = Map.total Flow.weight flows := by
  simp only [Map.total, Map.mapValues, List.map_map]
  rfl

theorem Exact.maybeRebase (E : q.Exact) : q.maybeRebase.Exact := by
  obtain ⟨h, -⟩ | ⟨-, -, hwsum, hflows⟩ := maybeRebase_cases q
  · rw [h]
    exact E
  · refine ⟨?_, hwsum ▸ E.small, fun k flow hk => ?_⟩
    · rw [hwsum, hflows, total_weight_shift]
      exact E.wsum
    · rw [hflows, Map.lookup_mapValues, Option.map_eq_some_iff] at hk
      obtain ⟨flow, hk, rfl⟩ := hk
      exact Nat.sub_le_sub_right (E.ordered k flow hk) _

theorem Exact.activated {n : Nat} (E : q.Exact) (hk : q.flows.lookup k = some flow)
    (hfits : max flow.f q.v + n * flow.invW < 2 ^ 64) : (q.activated k flow n).Exact := by
  unfold Qfq.activated
  refine E.insert hk rfl ?_
  rw [Flow.activated, wrap64, Nat.mod_eq_of_lt hfits]
  exact Nat.le_add_right ..

theorem Exact.advanced {len : Nat} {nextLen : Option Nat} (E : q.Exact)
    (hk : q.flows.lookup k = some flow)
    (hfits : ∀ n, nextLen = some n → flow.f + n * flow.invW < 2 ^ 64) :
    (q.advanced k flow len nextLen).Exact := by
  unfold Qfq.advanced
  cases nextLen with
  | none => exact E.insert hk rfl (Nat.le_refl flow.f)
  | some n =>
    refine E.insert hk rfl ?_
    rw [Flow.advanced, wrap64, Nat.mod_eq_of_lt (hfits n rfl)]
    exact Nat.le_add_right ..

theorem Exact.activate (E : q.Exact) {n : UInt32} (hfits : q.fits (.activate k n) = true) :
    (q.activate k n.toNat).Exact := by
  obtain h | ⟨flow, hk, hb, h⟩ := activate_cases q k n.toNat <;> rw [h]
  · exact E
  · refine (E.activated hk ?_).maybeRebase
    simpa [fits, hk, hb] using hfits

theorem Exact.served (E : q.Exact) {len : UInt32} {nextLen : Option UInt32}
    (hfits : q.fits (.served k len nextLen) = true) :
    (q.served k len.toNat (nextLen.map UInt32.toNat)).Exact := by
  obtain h | ⟨flow, hk, hb, h⟩ := served_cases q k len.toNat (nextLen.map UInt32.toNat) <;> rw [h]
  · exact E
  · refine (E.advanced hk ?_).maybeRebase
    rintro n hn
    obtain ⟨m, rfl, rfl⟩ := Option.map_eq_some_iff.mp hn
    simpa [fits, hk, hb] using hfits

theorem Exact.deactivate (E : q.Exact) (k : K) : (q.deactivate k).Exact := by
  obtain h | ⟨flow, hk, hb, h⟩ := deactivate_cases q k <;> rw [h]
  · exact E
  · unfold Qfq.withdrawn
    exact E.insert hk rfl (E.ordered k flow hk)

theorem Exact.removeFlow (E : q.Exact) (k : K) : (q.removeFlow k).Exact := by
  have E' := E.deactivate k
  unfold Qfq.removeFlow
  generalize q.deactivate k = q' at E'
  dsimp only
  split
  · exact E'
  · rename_i flow hk
    have hw := E'.wsum
    have hsmall := E'.small
    rw [Map.total_erase Flow.weight hk] at hw
    refine ⟨?_, Nat.mod_lt _ (by decide), fun a flow₁ ha => ?_⟩
    · simp only [wrap64]
      omega
    · rw [Map.lookup_erase_ite] at ha
      split at ha
      · cases ha
      · exact E'.ordered a flow₁ ha

theorem Exact.addFlow {weight lmax : UInt32} (E : q.Exact) (hk : q.contains k = false)
    (hfits : q.fits (.addFlow k weight lmax) = true) :
    (q.addFlow k weight.toNat lmax.toNat).Exact := by
  simp only [fits, decide_eq_true_eq] at hfits
  have hk : q.flows.lookup k = none := by simpa [contains] using hk
  refine ⟨?_, Nat.mod_lt _ (by decide), fun a flow ha => ?_⟩
  · simp only [Qfq.addFlow, Map.total_insert, Map.erase_of_lookup_none hk, wrap64]
    rw [Nat.mod_eq_of_lt hfits, E.wsum, Nat.add_comm]
  · simp only [Qfq.addFlow, Map.lookup_insert_ite] at ha
    split at ha
    · cases ha
      exact Nat.le_refl _
    · exact E.ordered a flow ha

omit [DecidableEq K] in
@[simp] theorem peek_wsum (q : Qfq K) : q.peek.1.wsum = q.wsum := by
  unfold Qfq.peek pickGroup
  split <;> rfl

theorem Exact.peek (E : q.Exact) : q.peek.1.Exact := by
  refine ⟨?_, ?_, ?_⟩
  · rw [peek_wsum, peek_flows]
    exact E.wsum
  · rw [peek_wsum]
    exact E.small
  · rw [peek_flows]
    exact E.ordered

theorem Exact.apply (E : q.Exact) (hfits : q.fits op = true) (H : q.apply op = some q') :
    q'.Exact := by
  cases op with
  | addFlow k weight lmax =>
    simp only [Qfq.apply] at H
    split at H
    · cases H
    · rename_i hk
      cases H
      exact E.addFlow (Bool.eq_false_iff.mpr hk) hfits
  | removeFlow k =>
    cases H
    exact E.removeFlow k
  | activate k headLen =>
    cases H
    exact E.activate hfits
  | deactivate k =>
    cases H
    exact E.deactivate k
  | served k len nextLen =>
    cases H
    exact E.served hfits
  | peek =>
    cases H
    exact E.peek

/-- After any operations a backlogged flow waits once, in the slot of its own group that its start
falls in, nothing else waits, no slot and no group is empty, and there is a group exactly while some
flow is backlogged. When every addition fitted, the weights are summed up and no flow starts after
it finishes. -/
theorem slots_represent (H : reached ops = some q) :
    q.Wf ∧ (q.hasBacklog = true ↔ ∃ k, q.isActive k = true) ∧
    (Automaton.Meets apply (fun q op => q.fits op = true) new ops → q.Exact) := by
  have W := wf_reached H
  exact ⟨W, W.hasBacklog_iff, fun M =>
    Automaton.run_invariant_of_meets (fun E hfits H => E.apply hfits H) M exact_new H⟩

end Qfq

namespace Sample
open Qfq

/-- Two flows share the link, and one of them leaves. -/
def shared : List (Op Nat) :=
  [.addFlow 0 1 100, .addFlow 1 2 100, .activate 0 100, .activate 1 50, .peek, .served 1 50 (some 60),
    .peek, .served 0 100 none, .deactivate 1, .removeFlow 0]

end Sample

namespace Qfq

theorem slots_represent_shared : ∃ q, reached Sample.shared = some q ∧ q.Wf ∧
    (q.hasBacklog = true ↔ ∃ k, q.isActive k = true) ∧ q.Exact := by
  obtain ⟨q, hq⟩ := Option.isSome_iff_exists.mp
    (show (reached Sample.shared).isSome = true by decide +kernel)
  obtain ⟨W, hbacklog, hexact⟩ := slots_represent hq
  exact ⟨q, hq, W, hbacklog, hexact (by decide +kernel)⟩

variable {K : Type} [DecidableEq K] {q : Qfq K} {k : K} {flow : Flow}

/-! ## A flow that comes and goes -/

/-- A flow that enters a group of its own and leaves it again. -/
theorem moveSlot_insert (key : Nat) (k : K) :
    moveSlot k key none (some (Group.insert .empty key k)) = none := by
  have hempty : Group.remove (Group.insert .empty key k) key k = .empty :=
    OrdMap.alter_alter rfl (by simp [Group.eraseSlot])
  simp only [moveSlot, hempty]
  rfl

/-- A flow that gets something to send and loses it again has been charged for it. -/
theorem activate_deactivate {n : Nat} (hk : q.flows.lookup k = some flow)
    (hb : flow.backlogged = false) (hg : q.groups.get? flow.group = none)
    (hv : (q.activated k flow n).v < rebaseAt) :
    (q.activate k n).deactivate k = { q with
      flows := q.flows.insert k { flow.activated q.v n with backlogged := false }
      v := (q.activated k flow n).v } := by
  have hactivate : q.activate k n = q.activated k flow n := (activate_eq hk hb n).trans (if_pos hv)
  have hgroups : (enqueue q.groups k (flow.activated q.v n)).alter flow.group
      (moveSlot k (slotKey (max flow.f q.v) flow.group) none) = q.groups :=
    OrdMap.alter_alter hg (moveSlot_insert _ k)
  rw [hactivate]
  unfold Qfq.activated deactivate
  rw [AList.lookup_insert]
  dsimp only [Flow.activated] at hgroups ⊢
  rw [if_neg (by decide), AList.insert_insert, hgroups]

/-- `m` times a flow gets `n` bytes to send and loses them again. -/
def rounds (k : K) (n : UInt32) (m : Nat) : List (Op K) :=
  (List.replicate m [.activate k n, .deactivate k]).flatten

/-- A flow whose finish is ahead of the clock is charged for every round. -/
theorem run_rounds (q : Qfq K) (k : K) (flow : Flow) (n : UInt32) {c : Nat} (hb : flow.backlogged = false)
    (hg : q.groups.get? flow.group = none) (hv : q.v ≤ flow.f) (hc : n.toNat * flow.invW = c)
    (m : Nat) (hsmall : flow.f + m * c < 2 ^ 64)
    (hclock : q.groups.isEmpty = false ∧ q.v < rebaseAt ∨ flow.f + m * c < rebaseAt + c) :
    ∃ s headLen v, Automaton.run apply { q with flows := q.flows.insert k flow } (rounds k n m) =
      some { q with
        flows := q.flows.insert k { flow with s, f := flow.f + m * c, headLen }
        v } ∧ v ≤ flow.f + m * c ∧ (q.groups.isEmpty = false → v = q.v) := by
  induction m with
  | zero => exact ⟨flow.s, flow.headLen, q.v, by simp [rounds], by simpa using hv, fun _ => rfl⟩
  | succ m ih =>
    rw [Nat.succ_mul] at hsmall hclock
    obtain ⟨s, headLen, v, hrun, hle, hsame⟩ := ih (by omega) (hclock.imp_right fun h => by omega)
    have hrounds : rounds k n (m + 1) = rounds k n m ++ [.activate k n, .deactivate k] := by
      simp [rounds, List.replicate_succ']
    obtain ⟨q₁, hq₁⟩ : ∃ q₁ : Qfq K, q₁ = { q with
      flows := q.flows.insert k { flow with s, f := flow.f + m * c, headLen }, v } := ⟨_, rfl⟩
    have hk : q₁.flows.lookup k = some { flow with s, f := flow.f + m * c, headLen } := by
      rw [hq₁, AList.lookup_insert]
    have hclock₁ : (q₁.activated k { flow with s, f := flow.f + m * c, headLen } n.toNat).v =
        if q.groups.isEmpty then flow.f + m * c else q.v := by
      subst hq₁
      simp only [Qfq.activated]
      split
      · omega
      · rename_i hne
        exact hsame (Bool.eq_false_iff.mpr hne)
    have hlt : (q₁.activated k { flow with s, f := flow.f + m * c, headLen } n.toNat).v <
        rebaseAt := by
      rw [hclock₁]
      split
      · rename_i hempty
        rcases hclock with ⟨hne, -⟩ | hlt
        · rw [hempty] at hne
          cases hne
        · omega
      · rename_i hne
        rcases hclock with ⟨-, hlt⟩ | hlt <;> omega
    have hround := activate_deactivate hk hb (hq₁ ▸ hg) hlt
    have hstart : max (flow.f + m * c) v = flow.f + m * c := max_eq_left hle
    refine ⟨flow.f + m * c, n.toNat, if q.groups.isEmpty then flow.f + m * c else q.v, ?_, ?_, ?_⟩
    · rw [hrounds, Automaton.run_append, hrun, Option.bind_some, ← hq₁]
      simp only [Automaton.run_cons, apply, Option.bind_some, Automaton.run_nil, hround]
      rw [hclock₁]
      subst hq₁
      simp only [Flow.activated, hstart, AList.insert_insert, hc, Nat.succ_mul, ← Nat.add_assoc]
      rw [wrap64, Nat.mod_eq_of_lt (by omega), ← hb]
    · rw [Nat.succ_mul]
      split <;> omega
    · intro hne
      rw [hne]
      rfl

end Qfq

namespace Sample
open Qfq

/-- A flow waits while another of the same weight comes and goes. -/
def comingAndGoing (n : Nat) : List (Op Nat) :=
  [.addFlow 0 1 1, .activate 0 1, .addFlow 1 1 (UInt32.ofNat (2 ^ 31))] ++
    rounds 1 (UInt32.ofNat (2 ^ 31)) n

/-- What they find: the first waits. -/
def waiting : Qfq Nat := { (new.addFlow 0 1 1).activate 0 1 with wsum := 2 }

def chargedFlow (n s headLen : Nat) : Flow :=
  { weight := 1, invW := 2 ^ 20, s, f := n * 2 ^ 51, backlogged := false, headLen, group := 45 }

/-- What they leave: the second was charged `n` times. -/
def charged (n s headLen : Nat) : Qfq Nat :=
  { waiting with flows := waiting.flows.insert 1 (chargedFlow n s headLen) }

end Sample

namespace Qfq

theorem reached_comingAndGoing {n : Nat} (hn : n < 2 ^ 13) :
    ∃ s headLen, reached (Sample.comingAndGoing n) = some (Sample.charged n s headLen) := by
  have hstart : Automaton.run apply new [.addFlow 0 1 1, .activate 0 1,
      .addFlow 1 1 (UInt32.ofNat (2 ^ 31))] = some (Sample.charged 0 0 0) := rfl
  have hsmall : (Sample.chargedFlow 0 0 0).f + n * 2 ^ 51 < 2 ^ 64 := by
    simp only [Sample.chargedFlow]
    omega
  have hcharge : (UInt32.ofNat (2 ^ 31)).toNat * (Sample.chargedFlow 0 0 0).invW = 2 ^ 51 := rfl
  obtain ⟨s, headLen, v, hrun, -, hsame⟩ := run_rounds Sample.waiting 1 (Sample.chargedFlow 0 0 0)
    (UInt32.ofNat (2 ^ 31)) rfl (by decide +kernel) (Nat.le_refl 0) hcharge n hsmall (.inl (by decide +kernel))
  cases hsame (by decide +kernel)
  refine ⟨s, headLen, ?_⟩
  rw [reached, Sample.comingAndGoing, Automaton.run_append, hstart, Option.bind_some]
  have hf : (Sample.chargedFlow 0 0 0).f + n * 2 ^ 51 = n * 2 ^ 51 := Nat.zero_add _
  rw [hf] at hrun
  exact hrun

/-- A flow that comes and goes while another waits is charged until its finish overflows: it then
starts after it finishes. -/
theorem slots_overflow : ∃ (ops : List (Op Nat)) (q : Qfq Nat) (flow : Flow),
    reached ops = some q ∧ q.flows.lookup 1 = some flow ∧ flow.f < flow.s := by
  obtain ⟨s, headLen, hrun⟩ := @reached_comingAndGoing 8191 (by decide)
  have hlookup : ((Sample.charged 8191 s headLen).activated 1 (Sample.chargedFlow 8191 s headLen)
      (2 ^ 31)).flows.lookup 1 = some ((Sample.chargedFlow 8191 s headLen).activated 0 (2 ^ 31)) :=
    AList.lookup_insert _
  refine ⟨Sample.comingAndGoing 8191 ++ [.activate 1 (UInt32.ofNat (2 ^ 31))], _, _, ?_, hlookup, ?_⟩
  · rw [reached, Automaton.run_append, ← reached, hrun]
    rfl
  · simp only [Flow.activated, Sample.chargedFlow, wrap64]
    decide

end Qfq

end TunnelWeaver.Mux
