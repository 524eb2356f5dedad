import TunnelWeaver.Mux.Selection

/-! Bounded unfairness. While every flow stays backlogged, the flow that is served next starts, and
finishes, within two slots of every other: either the other has started and does not finish earlier,
or it has not started. What a flow gets is therefore inversely proportional to its `invW`, which is
`oneFp` over its weight rounded down. -/

namespace TunnelWeaver.Mux

/-! ## Packets and slots -/

theorem le_two_pow_ceilLog2 (x : Nat) : x ≤ 2 ^ ceilLog2 x := by
  unfold ceilLog2
  split
  · simpa using ‹x ≤ 1›
  · have hlt := Nat.lt_log2_self (n := x - 1)
    omega

theorem two_pow_ceilLog2_le {x : Nat} (hx : 0 < x) : 2 ^ ceilLog2 x ≤ 2 * x := by
  unfold ceilLog2
  split
  · omega
  · have hle := Nat.log2_self_le (n := x - 1) (by omega)
    rw [Nat.pow_succ]
    omega

theorem ceilLog2_le {x n : Nat} (hx : x ≤ 2 ^ n) : ceilLog2 x ≤ n := by
  unfold ceilLog2
  split
  · exact Nat.zero_le _
  · refine (Nat.log2_lt (by omega)).mpr ?_
    omega

/-- The slots of a flow's group hold a packet of its own, and not many. -/
theorem slotSize_groupIndex {lmax invW : Nat} (hl : 0 < lmax) (hlmax : lmax < 2 ^ 32)
    (hw : 0 < invW) (hinvW : invW ≤ 2 ^ 20) :
    lmax * invW ≤ Qfq.slotSize (groupIndex lmax invW) ∧
    Qfq.slotSize (groupIndex lmax invW) ≤ max 64 (2 * (lmax * invW)) ∧
    Qfq.slotSize (groupIndex lmax invW) ≤ 2 ^ 52 := by
  have hpacket : lmax * invW ≤ 2 ^ 32 * 2 ^ 20 := Nat.mul_le_mul hlmax.le hinvW
  have hpos : 0 < lmax * invW := Nat.mul_pos hl hw
  have hlog := ceilLog2_le (x := lmax * invW) (n := 52) (by omega)
  have hgroup : groupIndex lmax invW = ceilLog2 (lmax * invW) - 6 := by
    have hmax : min (lmax * invW) u64Max = lmax * invW := min_eq_left (by unfold u64Max; omega)
    unfold groupIndex minSlotShift maxIndex
    rw [hmax]
    omega
  have hexp : groupIndex lmax invW + minSlotShift = max 6 (ceilLog2 (lmax * invW)) := by
    rw [hgroup, minSlotShift]
    omega
  unfold Qfq.slotSize
  rw [hexp]
  refine ⟨(le_two_pow_ceilLog2 _).trans (Nat.pow_le_pow_right (by decide) (Nat.le_max_right ..)), ?_, ?_⟩
  · rcases Nat.le_total (ceilLog2 (lmax * invW)) 6 with h | h
    · rw [max_eq_left h]
      exact Nat.le_max_left ..
    · rw [max_eq_right h]
      exact (two_pow_ceilLog2_le hpos).trans (Nat.le_max_right ..)
  · exact Nat.pow_le_pow_right (by decide) (by omega)

namespace Qfq
variable {K : Type} [DecidableEq K] {q : Qfq K} {lmax : K → UInt32} {k : K} {flow : Flow}

/-! ## What a pick compares -/

omit [DecidableEq K] in
/-- A group that is selected finishes within two slots of everything that waits. -/
theorem Selects.finish_le {groups : OrdMap (Group K)} {v idx s idx' s' t : Nat}
    (H : Selects groups v idx) (hs : Starts groups idx s) (hs' : Starts groups idx' s')
    (ht : s' ≤ t) : s ≤ v ∧ s + 2 * slotSize idx ≤ t + 2 * max (slotSize idx) (slotSize idx') := by
  obtain ⟨s₀, hs₀, hle, hbefore⟩ := H
  obtain ⟨g, hg, hgs⟩ := hs
  obtain ⟨g₀, hg₀, hgs₀⟩ := hs₀
  rw [hg] at hg₀
  cases hg₀
  rw [hgs] at hgs₀
  cases hgs₀
  refine ⟨hle, ?_⟩
  have hmax := Nat.le_max_left (slotSize idx) (slotSize idx')
  have hmax' := Nat.le_max_right (slotSize idx) (slotSize idx')
  by_cases hv : s' ≤ v
  · have hb := hbefore idx' s' hs' hv
    unfold Before at hb
    omega
  · omega

/-! ## The flows that wait -/

/-- The constants of a flow: its group is that of its packets. -/
structure Suited (lmax : UInt32) (flow : Flow) : Prop where
  group : flow.group = groupIndex (max lmax.toNat 1) flow.invW
  pos : 0 < flow.invW
  le : flow.invW ≤ 2 ^ 20

theorem Suited.bounds {l : UInt32} (S : Suited l flow) :
    max l.toNat 1 * flow.invW ≤ slotSize flow.group ∧
    slotSize flow.group ≤ max 64 (2 * (max l.toNat 1 * flow.invW)) ∧
    slotSize flow.group ≤ 2 ^ 52 := by
  have hl := l.toNat_lt
  rw [S.group]
  exact slotSize_groupIndex (by omega) (by omega) S.pos S.le

/-- A packet of a flow takes at most a slot. -/
theorem Suited.packet_le {l n : UInt32} (S : Suited l flow) (hn : n ≤ l) :
    n.toNat * flow.invW ≤ slotSize flow.group := by
  have hn : n.toNat ≤ max l.toNat 1 := (UInt32.le_iff_toNat_le.mp hn).trans (Nat.le_max_left ..)
  exact (Nat.mul_le_mul_right _ hn).trans S.bounds.1

/-- A flow that waits with a packet it may send, at a time that is not near the end of the range. -/
structure Ready (lmax : UInt32) (flow : Flow) : Prop extends Suited lmax flow where
  backlogged : flow.backlogged = true
  finish : flow.f = flow.s + flow.headLen * flow.invW
  packet : flow.headLen ≤ lmax.toNat
  early : flow.s < 2 ^ 63

/-- Every flow waits, and no two are far apart. -/
structure Fair (lmax : K → UInt32) (q : Qfq K) : Prop where
  wf : q.Wf
  clock : q.v < rebaseAt
  ready : ∀ k flow, q.flows.lookup k = some flow → Ready (lmax k) flow
  near : ∀ i j fi fj, q.flows.lookup i = some fi → q.flows.lookup j = some fj →
    fi.s ≤ fj.s + 2 * max (slotSize fi.group) (slotSize fj.group)

theorem Fair.isActive (F : Fair lmax q) (hk : q.contains k = true) : q.isActive k = true := by
  obtain ⟨flow, hflow⟩ := Option.isSome_iff_exists.mp hk
  rw [Qfq.isActive, hflow, Option.any_some]
  exact (F.ready k flow hflow).backlogged

/-- What waits first is served at most two slots after anything that waits, and before the clock by
less than two of its own. -/
theorem Fair.served_le (F : Fair lmax q) (hk : q.peek.2 = some k)
    (hflow : q.flows.lookup k = some flow) :
    flow.f < q.peek.1.v + 2 * slotSize flow.group ∧
    ∀ j fj, q.flows.lookup j = some fj →
      flow.f ≤ fj.s + 2 * max (slotSize flow.group) (slotSize fj.group) := by
  have hfits : FinishesFit q.groups := by
    intro idx s hs
    obtain ⟨j, fj, hj, rfl, rfl⟩ := F.wf.of_starts hs
    have R := F.ready j fj hj
    have := slotKey_le fj.s fj.group
    have := R.early
    have := R.toSuited.bounds.2.2
    omega
  obtain ⟨idx, g, key, rest, slots, hidx, hg, hentries⟩ := peek_eq_some hk
  have hsel := selects_of_pickGroup hfits hidx
  have hstart : Starts q.groups idx key := ⟨g, hg, by rw [Group.start, hentries]; rfl⟩
  have hfirst : g.entries.head? = some (key, k :: rest) := by
    rw [hentries]
    rfl
  have hplace : q.placeOf k = some (idx, key) := Placed.head F.wf hg hfirst rfl
  have R := F.ready k flow hflow
  rw [placeOf, hflow, Option.bind_some, place, if_pos R.backlogged] at hplace
  cases hplace
  have hlt := lt_slotKey_add flow.s flow.group
  have hpacket : flow.headLen * flow.invW ≤ slotSize flow.group :=
    (Nat.mul_le_mul_right _ (R.packet.trans (Nat.le_max_left ..))).trans R.toSuited.bounds.1
  have hfinish := R.finish
  refine ⟨?_, fun j fj hj => ?_⟩
  · have hle := (hsel.finish_le hstart hstart (Nat.le_refl _)).1
    have hv := pickGroup_v q
    omega
  · obtain ⟨s', hs', hle'⟩ := F.wf.exists_starts hj (F.ready j fj hj).backlogged
    have hkey := slotKey_le fj.s fj.group
    have := (hsel.finish_le hstart hs' (hle'.trans hkey)).2
    omega

/-! ## Services -/

/-- A scheduler, and how many bytes each flow was served. -/
structure Tally (K : Type) where
  q : Qfq K
  bytes : K → Nat

/-- A packet of `len` bytes of the flow that a pick names is sent; its next one has `nextLen`. -/
def Tally.serve (t : Tally K) (x : UInt32 × UInt32) : Option (Tally K) :=
  t.q.peek.2.map fun k =>
    ⟨t.q.peek.1.served k x.1.toNat (some x.2.toNat), Function.update t.bytes k (t.bytes k + x.1.toNat)⟩

/-- The next packet of the flow that is served is one it may send, and no rebase is due. -/
def Within (lmax : K → UInt32) (t : Tally K) (x : UInt32 × UInt32) : Prop :=
  ∀ k flow, t.q.peek.2 = some k → t.q.flows.lookup k = some flow →
    x.2 ≤ lmax k ∧ (t.q.peek.1.advanced k flow x.1.toNat (some x.2.toNat)).v < rebaseAt

/-- What is sent is the packet that was announced. -/
def Announced (t : Tally K) (x : UInt32 × UInt32) : Prop :=
  ∀ k flow, t.q.peek.2 = some k → t.q.flows.lookup k = some flow → x.1.toNat = flow.headLen

/-- The clock before a service is a start or a time before a rebase was due. -/
theorem Fair.peek_v_lt (F : Fair lmax q) (hflow : q.flows.lookup k = some flow) :
    q.peek.1.v < 2 ^ 63 := by
  have hclock : q.v < 2 ^ 63 := F.clock.trans (by decide)
  have hraised := raised_peek q
  by_cases hstarted : ∃ idx s, Starts q.groups idx s ∧ s ≤ q.v
  · rw [hraised.started hstarted]
    exact hclock
  · obtain ⟨s, hs, -⟩ := F.wf.exists_starts hflow (F.ready k flow hflow).backlogged
    obtain ⟨-, idx', hs'⟩ := hraised.least hstarted _ s hs
    obtain ⟨j, fj, hj, -, heq⟩ := F.wf.of_starts hs'
    have := slotKey_le fj.s idx'
    have := (F.ready j fj hj).early
    omega

theorem Fair.clock_le (F : Fair lmax q) (hflow : q.flows.lookup k = some flow) (len : UInt32)
    (nextLen : Option Nat) : q.peek.1.v ≤ (q.peek.1.advanced k flow len.toNat nextLen).v := by
  have hv := F.peek_v_lt hflow
  have hstep : len.toNat * oneFp / q.peek.1.wsum ≤ 2 ^ 52 := by
    refine (Nat.div_le_self ..).trans ?_
    have := len.toNat_lt
    simp only [oneFp]
    omega
  unfold advanced
  dsimp only
  split
  · exact Nat.le_refl _
  · rw [wrap64, Nat.mod_eq_of_lt (by omega)]
    exact Nat.le_add_right ..

theorem flows_advanced_peek (q : Qfq K) (k : K) (flow : Flow) (len : Nat) (nextLen : Option Nat) :
    (q.peek.1.advanced k flow len nextLen).flows = q.flows.insert k (flow.advanced nextLen) := by
  unfold advanced
  dsimp only
  rw [peek_flows]

/-- A service advances the flow that the pick names. -/
theorem Fair.serve_eq {t t' : Tally K} {x : UInt32 × UInt32} (F : Fair lmax t.q)
    (hwithin : Within lmax t x) (H : t.serve x = some t') : ∃ k flow, t.q.peek.2 = some k ∧
      t.q.flows.lookup k = some flow ∧ t' = ⟨t.q.peek.1.advanced k flow x.1.toNat (some x.2.toNat),
        Function.update t.bytes k (t.bytes k + x.1.toNat)⟩ := by
  obtain ⟨k, hk, rfl⟩ := Option.map_eq_some_iff.mp H
  obtain ⟨flow, hflow, hb⟩ := (Option.any_eq_true _ _).mp (F.wf.isActive_of_peek hk)
  have hflow₁ : t.q.peek.1.flows.lookup k = some flow := by rw [peek_flows]; exact hflow
  have hserved : t.q.peek.1.served k x.1.toNat (some x.2.toNat) =
      t.q.peek.1.advanced k flow x.1.toNat (some x.2.toNat) :=
    (served_eq hflow₁ hb _ _).trans (if_pos (hwithin k flow hk hflow).2)
  exact ⟨k, flow, hk, hflow, by rw [hserved]⟩

theorem Fair.serve {t t' : Tally K} {x : UInt32 × UInt32} (F : Fair lmax t.q)
    (hwithin : Within lmax t x) (H : t.serve x = some t') : Fair lmax t'.q := by
  obtain ⟨k, flow, hk, hflow, rfl⟩ := F.serve_eq hwithin H
  obtain ⟨hnext, hclock⟩ := hwithin k flow hk hflow
  obtain ⟨hlt, hnear⟩ := F.served_le hk hflow
  have hle := F.clock_le hflow x.1 (some x.2.toNat)
  have R := F.ready k flow hflow
  have hsize := R.toSuited.bounds.2.2
  have hearly : flow.f < 2 ^ 63 := by
    have : (t.q.peek.1.advanced k flow x.1.toNat (some x.2.toNat)).v < 2 ^ 62 := hclock
    omega
  have hpacket := R.toSuited.packet_le hnext
  have hserved := served_eq (q := t.q.peek.1) (by rw [peek_flows]; exact hflow) R.backlogged x.1.toNat
    (some x.2.toNat)
  rw [maybeRebase, if_pos hclock] at hserved
  refine ⟨hserved ▸ F.wf.peek.served k _ _, hclock, fun j fj hj => ?_, fun i j fi fj hi hj => ?_⟩
  · rw [flows_advanced_peek, Map.lookup_insert_ite] at hj
    split at hj
    · rename_i hjk
      subst hjk
      cases hj
      refine ⟨⟨R.group, R.pos, R.le⟩, R.backlogged, ?_, UInt32.le_iff_toNat_le.mp hnext, hearly⟩
      exact Nat.mod_eq_of_lt (by omega)
    · exact F.ready j fj hj
  · rw [flows_advanced_peek, Map.lookup_insert_ite] at hi hj
    split at hi
    · cases hi
      split at hj
      · cases hj
        exact Nat.le_add_right ..
      · exact hnear j fj hj
    · split at hj
      · cases hj
        have := F.near i k fi flow hi hflow
        have := R.finish
        simp only [Flow.advanced]
        omega
      · exact F.near i j fi fj hi hj

theorem Fair.run {t t' : Tally K} {xs : List (UInt32 × UInt32)} (F : Fair lmax t.q)
    (M : Automaton.Meets Tally.serve (Within lmax) t xs)
    (H : Automaton.run Tally.serve t xs = some t') : Fair lmax t'.q :=
  Automaton.run_invariant_of_meets (I := fun t => Fair lmax t.q)
    (fun F hwithin H => F.serve hwithin H) M F H

/-! ## Bytes -/

/-- Each flow started as many bytes ago as it was served, in its own measure. -/
def Metered (t : Tally K) : Prop :=
  ∀ k flow, t.q.flows.lookup k = some flow → flow.s = flow.invW * t.bytes k

theorem Metered.serve {t t' : Tally K} {x : UInt32 × UInt32} (Me : Metered t) (F : Fair lmax t.q)
    (hwithin : Within lmax t x) (hsent : Announced t x) (H : t.serve x = some t') : Metered t' := by
  obtain ⟨k, flow, hk, hflow, rfl⟩ := F.serve_eq hwithin H
  intro j fj hj
  rw [flows_advanced_peek, Map.lookup_insert_ite] at hj
  split at hj
  · rename_i hjk
    subst hjk
    cases hj
    have hs := Me j flow hflow
    have hf := (F.ready j flow hflow).finish
    simp only [Flow.advanced]
    rw [Function.update_self, hsent j flow hk hflow, Nat.mul_add, hf, hs, Nat.mul_comm flow.headLen]
  · rename_i hjk
    dsimp only
    rw [Function.update_of_ne hjk]
    exact Me j fj hj

theorem Metered.run {t t' : Tally K} {xs : List (UInt32 × UInt32)} (F : Fair lmax t.q)
    (Me : Metered t) (M : Automaton.Meets Tally.serve (Within lmax) t xs)
    (S : Automaton.Meets Tally.serve Announced t xs)
    (H : Automaton.run Tally.serve t xs = some t') : Metered t' := by
  induction xs generalizing t with
  | nil =>
    cases H
    exact Me
  | cons x xs ih =>
    obtain ⟨t₁, h₁, H⟩ := Automaton.run_cons_eq_some.mp H
    exact ih (F.serve M.1 h₁) (Me.serve F M.1 S.1 h₁) (M.2 t₁ h₁) (S.2 t₁ h₁) H

/-! ## Before the first service -/

/-- Flows are registered and get something to send, within what they announced. -/
def Opening (lmax : K → UInt32) : Op K → Prop
  | .addFlow k weight l => 1 ≤ weight ∧ weight ≤ UInt32.ofNat (2 ^ 20) ∧ l = lmax k
  | .activate k headLen => headLen ≤ lmax k
  | _ => False

instance (lmax : K → UInt32) : (op : Op K) → Decidable (Opening lmax op)
  | .addFlow k weight l =>
    inferInstanceAs (Decidable (1 ≤ weight ∧ weight ≤ UInt32.ofNat (2 ^ 20) ∧ l = lmax k))
  | .activate k headLen => inferInstanceAs (Decidable (headLen ≤ lmax k))
  | .removeFlow _ | .deactivate _ | .served .. | .peek => inferInstanceAs (Decidable False)

/-- Nobody was served yet. -/
structure Opened (lmax : K → UInt32) (q : Qfq K) : Prop where
  clock : q.v = 0
  suited : ∀ k flow, q.flows.lookup k = some flow → Suited (lmax k) flow
  start : ∀ k flow, q.flows.lookup k = some flow → flow.s = 0
  finish : ∀ k flow, q.flows.lookup k = some flow →
    flow.f = flow.headLen * flow.invW ∧ flow.headLen ≤ (lmax k).toNat
  fresh : ∀ k flow, q.flows.lookup k = some flow → flow.backlogged = false → flow.f = 0

theorem opened_new (lmax : K → UInt32) : Opened lmax new :=
  ⟨rfl, fun _ _ h => (by cases h), fun _ _ h => (by cases h), fun _ _ h => (by cases h),
    fun _ _ h => (by cases h)⟩

theorem Opened.insert {v : Nat} {groups : OrdMap (Group K)} {wsum : Nat} (O : Opened lmax q)
    (hv : v = 0) (S : Suited (lmax k) flow) (hs : flow.s = 0)
    (hf : flow.f = flow.headLen * flow.invW) (hn : flow.headLen ≤ (lmax k).toNat)
    (hb : flow.backlogged = false → flow.f = 0) :
    Opened lmax { q with flows := q.flows.insert k flow, groups, v, wsum } := by
  refine ⟨hv, ?_, ?_, ?_, ?_⟩ <;> intro j fj hj <;> rw [Map.lookup_insert_ite] at hj <;> split at hj
  · rename_i hjk
    cases hj
    exact hjk ▸ S
  · exact O.suited j fj hj
  · cases hj
    exact hs
  · exact O.start j fj hj
  · rename_i hjk
    cases hj
    exact ⟨hf, hjk ▸ hn⟩
  · exact O.finish j fj hj
  · cases hj
    exact hb
  · exact O.fresh j fj hj

theorem Opened.apply {q' : Qfq K} {op : Op K} (O : Opened lmax q) (hop : Opening lmax op)
    (H : q.apply op = some q') : Opened lmax q' := by
  cases op with
  | addFlow k weight l =>
    simp only [Qfq.apply] at H
    split at H
    · cases H
    · cases H
      obtain ⟨hpos, hle, rfl⟩ := hop
      have hpos : 1 ≤ weight.toNat := UInt32.le_iff_toNat_le.mp hpos
      have hle : weight.toNat ≤ 2 ^ 20 := UInt32.le_iff_toNat_le.mp hle
      have hmax : max weight.toNat 1 = weight.toNat := max_eq_left hpos
      refine O.insert O.clock ⟨rfl, ?_, ?_⟩ rfl (Nat.zero_mul _).symm (Nat.zero_le _) fun _ => rfl
      · rw [hmax]
        exact Nat.div_pos hle hpos
      · exact Nat.div_le_self ..
  | activate k headLen =>
    cases H
    obtain h | ⟨flow, hk, hb, h⟩ := activate_cases q k headLen.toNat <;> rw [h]
    · exact O
    · have hf := O.fresh k flow hk hb
      have hstart : max flow.f q.v = 0 := by rw [hf, O.clock]; rfl
      have hclock : (q.activated k flow headLen.toNat).v = 0 := by
        unfold activated
        dsimp only
        rw [hstart, O.clock]
        split <;> rfl
      have hpacket := (O.suited k flow hk).packet_le hop
      have hsize := (O.suited k flow hk).bounds.2.2
      rw [maybeRebase, if_pos (by rw [hclock]; decide)]
      have S := O.suited k flow hk
      refine O.insert hclock ⟨S.group, S.pos, S.le⟩ hstart ?_ (UInt32.le_iff_toNat_le.mp hop)
        (fun h => by cases h)
      simp only [Flow.activated, hstart, Nat.zero_add]
      exact Nat.mod_eq_of_lt (by omega)
  | removeFlow k | deactivate k | served k len nextLen | peek => exact hop.elim

theorem Opened.metered (O : Opened lmax q) : Metered ⟨q, fun _ => 0⟩ := by
  intro k flow hk
  rw [Nat.mul_zero]
  exact O.start k flow hk

theorem Opened.fair (O : Opened lmax q) (W : q.Wf)
    (hall : ∀ k, q.contains k = true → q.isActive k = true) : Fair lmax q where
  wf := W
  clock := by rw [O.clock]; decide
  ready k flow hk := by
    have hb := hall k (by simp [contains, hk])
    rw [isActive, hk, Option.any_some] at hb
    obtain ⟨hf, hn⟩ := O.finish k flow hk
    have hs := O.start k flow hk
    exact ⟨O.suited k flow hk, hb, by rw [hs, Nat.zero_add]; exact hf, hn, by rw [hs]; decide⟩
  near i j fi fj hi hj := by
    rw [O.start i fi hi]
    exact Nat.zero_le _

/-- Flows are registered and all get something to send, and then every service is of the flow that a
pick names, each packet within what the flow announced, until a rebase is due. Then no two flows
start further apart than two slots of the coarser. Where the packets sent are the ones announced, the
bytes that two flows were served, each times its `invW`, differ by no more, so that no flow goes
without; this is a bounded number of packets, as a slot holds at most two of the largest. -/
theorem bounded_unfairness {opening : List (Op K)} {xs : List (UInt32 × UInt32)} {t : Tally K}
    (hopening : ∀ op ∈ opening, Opening lmax op) (hq : reached opening = some q)
    (hall : ∀ k, q.contains k = true → q.isActive k = true)
    (hwithin : Automaton.Meets Tally.serve (Within lmax) ⟨q, fun _ => 0⟩ xs)
    (hrun : Automaton.run Tally.serve ⟨q, fun _ => 0⟩ xs = some t) :
    (∀ i j fi fj, t.q.flows.lookup i = some fi → t.q.flows.lookup j = some fj →
      fi.s ≤ fj.s + 2 * max (slotSize fi.group) (slotSize fj.group) ∧
      (Automaton.Meets Tally.serve Announced ⟨q, fun _ => 0⟩ xs →
        fi.invW * t.bytes i ≤
          fj.invW * t.bytes j + 2 * max (slotSize fi.group) (slotSize fj.group) ∧
        (2 * max (slotSize fi.group) (slotSize fj.group) < fi.invW * t.bytes i →
          0 < t.bytes j))) ∧
    ∀ k flow, t.q.flows.lookup k = some flow →
      slotSize flow.group ≤ max 64 (2 * (max (lmax k).toNat 1 * flow.invW)) := by
  have O : Opened lmax q := Automaton.run_invariant (fun O hop H => O.apply hop H) hopening
    (opened_new lmax) hq
  have F := O.fair (wf_reached hq) hall
  have F' := Fair.run (t := ⟨q, fun _ => 0⟩) F hwithin hrun
  refine ⟨fun i j fi fj hi hj => ⟨F'.near i j fi fj hi hj, fun hsent => ?_⟩, fun k flow hk =>
    (F'.ready k flow hk).toSuited.bounds.2.1⟩
  have Me := (O.metered).run F hwithin hsent hrun
  have hnear := F'.near i j fi fj hi hj
  rw [Me i fi hi, Me j fj hj] at hnear
  refine ⟨hnear, fun hlt => Nat.pos_of_ne_zero fun hnone => ?_⟩
  rw [hnone, Nat.mul_zero] at hnear
  omega

end Qfq

namespace Sample
open Qfq

/-- Two flows whose weights give the same `invW`. -/
def alike : List (Op Nat) :=
  [.addFlow 0 (UInt32.ofNat (2 ^ 20)) 1, .activate 0 1,
    .addFlow 1 (UInt32.ofNat (2 ^ 19 + 1)) 1, .activate 1 1]

/-- What they find. -/
def alikeQfq : Qfq Nat :=
  (((new.addFlow 0 (2 ^ 20) 1).activate 0 1).addFlow 1 (2 ^ 19 + 1) 1).activate 1 1

end Sample

namespace Qfq

theorem reached_alike : reached Sample.alike = some Sample.alikeQfq := rfl

theorem opening_alike : ∀ op ∈ Sample.alike, Opening (fun _ => 1) op := by decide +kernel

/-- Two flows that send packets of one byte in the same measure, after `n` services. -/
structure Alike (n : Nat) (t : Tally Nat) : Prop where
  fair : Fair (fun _ => 1) t.q
  metered : Metered t
  both : (t.q.flows.lookup 0).isSome = true ∧ (t.q.flows.lookup 1).isSome = true
  same : ∀ k flow, t.q.flows.lookup k = some flow →
    (k = 0 ∨ k = 1) ∧ flow.invW = 1 ∧ flow.headLen = 1 ∧ flow.group = 0
  total : t.bytes 0 + t.bytes 1 = n
  clock : t.q.v ≤ n
  wsum : t.q.wsum = 2 ^ 20 + (2 ^ 19 + 1)

theorem alike_start : Alike 0 ⟨Sample.alikeQfq, fun _ => 0⟩ := by
  have O : Opened (fun _ => 1) Sample.alikeQfq := Automaton.run_invariant
    (fun O hop H => O.apply hop H) opening_alike (opened_new _) reached_alike
  have hentries : ∀ e ∈ Sample.alikeQfq.flows.entries, e.2.backlogged = true ∧
      (e.1 = 0 ∨ e.1 = 1) ∧ e.2.invW = 1 ∧ e.2.headLen = 1 ∧ e.2.group = 0 := by decide +kernel
  have hflows : ∀ k flow, Sample.alikeQfq.flows.lookup k = some flow → flow.backlogged = true ∧
      (k = 0 ∨ k = 1) ∧ flow.invW = 1 ∧ flow.headLen = 1 ∧ flow.group = 0 := fun k flow hk =>
    hentries ⟨k, flow⟩ (AList.mem_lookup_iff.mp hk)
  refine ⟨O.fair (wf_reached reached_alike) fun k hk => ?_, O.metered, by decide +kernel,
    fun k flow hk => (hflows k flow hk).2, rfl, by decide +kernel, by decide +kernel⟩
  obtain ⟨flow, hflow⟩ := Option.isSome_iff_exists.mp hk
  rw [isActive, hflow, Option.any_some]
  exact (hflows k flow hflow).1

/-- A service, which moves the clock no further than a start. -/
theorem Alike.serve {n : Nat} {t : Tally Nat} (A : Alike n t) (hn : n < 2 ^ 60) :
    Within (fun _ => 1) t (1, 1) ∧ Announced t (1, 1) ∧
      ∃ t', t.serve (1, 1) = some t' ∧ Alike (n + 1) t' := by
  have hpeek : t.q.peek.1.v ≤ n := by
    have hraised := raised_peek t.q
    obtain ⟨flow, hflow⟩ := Option.isSome_iff_exists.mp A.both.1
    by_cases hstarted : ∃ idx s, Starts t.q.groups idx s ∧ s ≤ t.q.v
    · rw [hraised.started hstarted]
      exact A.clock
    · obtain ⟨s, hs, hle⟩ := A.fair.wf.exists_starts hflow (A.fair.ready 0 flow hflow).backlogged
      have hleast := (hraised.least hstarted _ s hs).1
      have hkey := slotKey_le flow.s flow.group
      have hbytes := A.metered 0 flow hflow
      rw [(A.same 0 flow hflow).2.1, Nat.one_mul] at hbytes
      have := A.total
      omega
  have hclock : ∀ k flow, (t.q.peek.1.advanced k flow 1 (some 1)).v = t.q.peek.1.v := by
    intro k flow
    unfold advanced
    dsimp only
    rw [peek_wsum, A.wsum]
    -- a byte is no step at all: the weights sum up to more than the scale
    exact Nat.mod_eq_of_lt (show t.q.peek.1.v < 2 ^ 64 by omega)
  have hwithin : Within (fun _ => 1) t (1, 1) := by
    intro k flow _ _
    refine ⟨UInt32.le_refl 1, ?_⟩
    rw [show (t.q.peek.1.advanced k flow (1 : UInt32).toNat (some (1 : UInt32).toNat)).v =
      t.q.peek.1.v from hclock k flow, rebaseAt]
    omega
  have hsent : Announced t (1, 1) := fun k flow _ hflow => (A.same k flow hflow).2.2.1.symm
  have hsome : t.q.peek.2.isSome = true := by
    rw [A.fair.wf.peek_isSome, A.fair.wf.hasBacklog_iff]
    exact ⟨0, A.fair.isActive A.both.1⟩
  obtain ⟨k, hk⟩ := Option.isSome_iff_exists.mp hsome
  have hserve : t.serve (1, 1) = some ⟨t.q.peek.1.served k 1 (some 1),
      Function.update t.bytes k (t.bytes k + 1)⟩ := by
    rw [Tally.serve, hk]
    rfl
  refine ⟨hwithin, hsent, _, hserve, ?_⟩
  have F := A.fair.serve hwithin hserve
  have Me := A.metered.serve A.fair hwithin hsent hserve
  obtain ⟨j, flow, -, hflow, heq⟩ := A.fair.serve_eq hwithin hserve
  have hj := (A.same j flow hflow).1
  rw [heq] at F Me ⊢
  refine ⟨F, Me, ?_, fun i fi hi => ?_, ?_, ?_, ?_⟩
  · rw [flows_advanced_peek, Map.lookup_insert_ite, Map.lookup_insert_ite]
    exact ⟨by split <;> simp [A.both.1], by split <;> simp [A.both.2]⟩
  · rw [flows_advanced_peek, Map.lookup_insert_ite] at hi
    split at hi
    · rename_i hij
      cases hi
      obtain ⟨-, hinvW, -, hgroup⟩ := A.same j flow hflow
      exact ⟨hij ▸ hj, hinvW, rfl, hgroup⟩
    · exact A.same i fi hi
  · have := A.total
    rcases hj with rfl | rfl
    · dsimp only
      rw [Function.update_self, Function.update_of_ne (by decide)]
      simp only [UInt32.toNat_one]
      omega
    · dsimp only
      rw [Function.update_self, Function.update_of_ne (by decide)]
      simp only [UInt32.toNat_one]
      omega
  · exact (hclock j flow).le.trans (hpeek.trans (Nat.le_succ n))
  · exact (peek_wsum t.q).trans A.wsum

theorem Alike.run {t : Tally Nat} {m : Nat} (n : Nat) (A : Alike m t) (hn : m + n < 2 ^ 60) :
    Automaton.Meets Tally.serve (Within fun _ => 1) t (List.replicate n (1, 1)) ∧
      Automaton.Meets Tally.serve Announced t (List.replicate n (1, 1)) ∧
      ∃ t', Automaton.run Tally.serve t (List.replicate n (1, 1)) = some t' ∧ Alike (m + n) t' := by
  induction n generalizing t m with
  | zero => exact ⟨trivial, trivial, t, rfl, A⟩
  | succ n ih =>
    obtain ⟨hwithin, hsent, t₁, h₁, A₁⟩ := A.serve (by omega)
    obtain ⟨M, S, t', hrun, A'⟩ := ih A₁ (by omega)
    rw [List.replicate_succ]
    refine ⟨⟨hwithin, fun t₂ h₂ => ?_⟩, ⟨hsent, fun t₂ h₂ => ?_⟩, t',
      Automaton.run_cons_eq_some.mpr ⟨t₁, h₁, hrun⟩, by rwa [Nat.add_assoc, Nat.add_comm 1] at A'⟩
    · rw [h₁] at h₂
      cases h₂
      exact M
    · rw [h₁] at h₂
      cases h₂
      exact S

/-- Two flows start together and are served a packet each. -/
theorem bounded_unfairness_alike : ∃ t, Automaton.run Tally.serve ⟨Sample.alikeQfq, fun _ => 0⟩
    (List.replicate 2 (1, 1)) = some t ∧ ∀ i j fi fj, t.q.flows.lookup i = some fi →
      t.q.flows.lookup j = some fj → fi.invW * t.bytes i ≤
        fj.invW * t.bytes j + 2 * max (slotSize fi.group) (slotSize fj.group) := by
  obtain ⟨M, S, t, hrun, -⟩ := alike_start.run 2 (by decide)
  have H := bounded_unfairness opening_alike reached_alike
    (fun k hk => alike_start.fair.isActive hk) M hrun
  exact ⟨t, hrun, fun i j fi fj hi hj => ((H.1 i j fi fj hi hj).2 S).1⟩

/-- However many packets, the flow of twice the weight falls behind its share of the bytes by more:
both weights give the same `invW`. -/
theorem behind_share {N : Nat} (hN : N ≤ 2 ^ 40) : ∃ xs t,
    (∀ op ∈ Sample.alike, Opening (fun _ => 1) op) ∧ reached Sample.alike = some Sample.alikeQfq ∧
    Automaton.Meets Tally.serve (Within fun _ => 1) ⟨Sample.alikeQfq, fun _ => 0⟩ xs ∧
    Automaton.Meets Tally.serve Announced ⟨Sample.alikeQfq, fun _ => 0⟩ xs ∧
    Automaton.run Tally.serve ⟨Sample.alikeQfq, fun _ => 0⟩ xs = some t ∧
    (t.bytes 0 + N) * t.q.wsum < 2 ^ 20 * (t.bytes 0 + t.bytes 1) := by
  obtain ⟨M, S, t, hrun, A⟩ := alike_start.run (8 * N + 1024) (by omega)
  refine ⟨_, t, opening_alike, reached_alike, M, S, hrun, ?_⟩
  obtain ⟨f₀, h₀⟩ := Option.isSome_iff_exists.mp A.both.1
  obtain ⟨f₁, h₁⟩ := Option.isSome_iff_exists.mp A.both.2
  obtain ⟨-, hw₀, -, hg₀⟩ := A.same 0 f₀ h₀
  obtain ⟨-, hw₁, -, hg₁⟩ := A.same 1 f₁ h₁
  have hnear := A.fair.near 0 1 f₀ f₁ h₀ h₁
  have hs₀ := A.metered 0 f₀ h₀
  have hs₁ := A.metered 1 f₁ h₁
  have hsize : slotSize 0 = 64 := rfl
  rw [hg₀, hg₁, hsize] at hnear
  rw [hw₀, Nat.one_mul] at hs₀
  rw [hw₁, Nat.one_mul] at hs₁
  have htotal := A.total
  rw [A.wsum]
  omega

/-- No number of packets bounds what the flow of twice the weight is short of. -/
theorem share_unbounded : ¬∃ N ≤ 2 ^ 40, ∀ xs t,
    (∀ op ∈ Sample.alike, Opening (fun _ => 1) op) → reached Sample.alike = some Sample.alikeQfq →
    Automaton.Meets Tally.serve (Within fun _ => 1) ⟨Sample.alikeQfq, fun _ => 0⟩ xs →
    Automaton.Meets Tally.serve Announced ⟨Sample.alikeQfq, fun _ => 0⟩ xs →
    Automaton.run Tally.serve ⟨Sample.alikeQfq, fun _ => 0⟩ xs = some t →
    2 ^ 20 * (t.bytes 0 + t.bytes 1) ≤ (t.bytes 0 + N) * t.q.wsum := by
  rintro ⟨N, hN, h⟩
  obtain ⟨xs, t, hopening, hreached, hwithin, hannounced, hrun, hshort⟩ := behind_share hN
  exact absurd (h xs t hopening hreached hwithin hannounced hrun) (Nat.not_le.mpr hshort)

end Qfq

end TunnelWeaver.Mux
