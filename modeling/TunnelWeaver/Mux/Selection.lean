import TunnelWeaver.Mux.Slots

/-! What a pick selects. The walk over the groups, from the coarsest to the finest with a running
minimum, finds the group that the rule of QFQ names: among those that have started, the one that
finishes first, and of these the finest. -/

namespace TunnelWeaver.Mux

namespace Qfq
variable {K : Type}

/-! ## The rule -/

/-- The size of the slots of group `idx`. -/
def slotSize (idx : Nat) : Nat := 2 ^ (idx + minSlotShift)

theorem slotKey_eq (s group : Nat) : slotKey s group = s / slotSize group * slotSize group := by
  unfold slotKey roundDown slotSize
  rw [Nat.shiftRight_eq_div_pow, Nat.shiftLeft_eq]

theorem slotSize_pos (idx : Nat) : 0 < slotSize idx := Nat.two_pow_pos _

theorem slotKey_le (s group : Nat) : slotKey s group ≤ s := by
  rw [slotKey_eq]
  exact Nat.div_mul_le_self ..

theorem slotKey_mono {s t : Nat} (h : s ≤ t) (group : Nat) : slotKey s group ≤ slotKey t group := by
  rw [slotKey_eq, slotKey_eq]
  exact Nat.mul_le_mul_right _ (Nat.div_le_div_right h)

@[simp] theorem slotKey_slotKey (s group : Nat) : slotKey (slotKey s group) group = slotKey s group := by
  rw [slotKey_eq (slotKey s group), slotKey_eq, Nat.mul_div_cancel _ (slotSize_pos group)]

theorem lt_slotKey_add (s group : Nat) : s < slotKey s group + slotSize group := by
  have hlt := Nat.mod_lt s (slotSize_pos group)
  have hdiv := Nat.div_add_mod' s (slotSize group)
  rw [slotKey_eq]
  omega

/-- Group `idx` starts at `s`. -/
def Starts (groups : OrdMap (Group K)) (idx s : Nat) : Prop :=
  ∃ g, groups.get? idx = some g ∧ Group.start g = some s

/-- One finish is before another; of two at the same time, that of the lower group. -/
def Before (f idx f' idx' : Nat) : Prop := f < f' ∨ f = f' ∧ idx ≤ idx'

/-- Group `idx` has started at `v`, and finishes before every other that has. -/
def Selects (groups : OrdMap (Group K)) (v idx : Nat) : Prop :=
  ∃ s, Starts groups idx s ∧ s ≤ v ∧ ∀ idx' s', Starts groups idx' s' → s' ≤ v →
    Before (s + 2 * slotSize idx) idx (s' + 2 * slotSize idx') idx'

/-- No finish leaves the 64-bit range. -/
def FinishesFit (groups : OrdMap (Group K)) : Prop :=
  ∀ idx s, Starts groups idx s → s + 2 * slotSize idx < 2 ^ 64

/-- `v'` is `v` where a group has started by then, and else the least start. -/
structure Raised (groups : OrdMap (Group K)) (v v' : Nat) : Prop where
  started : (∃ idx s, Starts groups idx s ∧ s ≤ v) → v' = v
  least : (¬∃ idx s, Starts groups idx s ∧ s ≤ v) → ∀ idx s, Starts groups idx s →
    v' ≤ s ∧ ∃ idx', Starts groups idx' v'
  idle : (∀ idx s, ¬Starts groups idx s) → v' = v

theorem starts_iff {groups : OrdMap (Group K)} {idx s : Nat} :
    Starts groups idx s ↔ ∃ g, (idx, g) ∈ groups.entries ∧ Group.start g = some s := by
  simp only [Starts, OrdMap.get?_eq_some]

instance (groups : OrdMap (Group K)) : Decidable (FinishesFit groups) :=
  decidable_of_iff
    (∀ e ∈ groups.entries, ∀ s ∈ Group.start e.2, s + 2 * slotSize e.1 < 2 ^ 64) <| by
    refine ⟨fun h idx s hs => ?_, fun h e he s hs => h e.1 s (starts_iff.mpr ⟨e.2, he, hs⟩)⟩
    obtain ⟨g, hg, hs⟩ := starts_iff.mp hs
    exact h (idx, g) hg s hs

/-! ## The walk -/

theorem finish_eq {g : Group K} {idx s : Nat} (hs : Group.start g = some s)
    (hfits : s + 2 * slotSize idx < 2 ^ 64) :
    Group.finish g (idx + minSlotShift) = some (s + 2 * slotSize idx) := by
  have hsize : wrap64 (2 * 2 ^ (idx + minSlotShift)) = 2 * slotSize idx :=
    Nat.mod_eq_of_lt (by unfold slotSize at hfits; omega)
  rw [Group.finish, hs, Option.map_some, hsize, wrap64, Nat.mod_eq_of_lt hfits]

/-- What the walk has found in the groups seen so far: none has started, or the one it keeps is
before all that have. -/
def Walked (v : Nat) (l : List (Nat × Group K)) (acc : Nat × Option Nat) : Prop :=
  acc = (u64Max, none) ∧ (∀ e ∈ l, ∀ s, Group.start e.2 = some s → v < s) ∨
  ∃ e ∈ l, ∃ s, Group.start e.2 = some s ∧ s ≤ v ∧ acc = (s + 2 * slotSize e.1, some e.1) ∧
    ∀ e' ∈ l, ∀ s', Group.start e'.2 = some s' → s' ≤ v →
      Before (s + 2 * slotSize e.1) e.1 (s' + 2 * slotSize e'.1) e'.1

theorem Walked.step {v : Nat} {e : Nat × Group K} {l : List (Nat × Group K)}
    {acc : Nat × Option Nat} (H : Walked v l acc) (hlt : ∀ e' ∈ l, e.1 < e'.1)
    (hfits : ∀ s, Group.start e.2 = some s → s + 2 * slotSize e.1 < 2 ^ 64) :
    Walked v (e :: l) (pickStep v acc e) := by
  unfold pickStep
  cases hs : Group.start e.2 with
  | none =>
    rcases H with ⟨hacc, hnone⟩ | ⟨e₀, he₀, s₀, hs₀, hle, hacc, hbefore⟩
    · refine .inl ⟨hacc, fun e' he' s' hs' => ?_⟩
      rcases List.mem_cons.mp he' with rfl | he'
      · rw [hs] at hs'
        cases hs'
      · exact hnone e' he' s' hs'
    · refine .inr ⟨e₀, List.mem_cons_of_mem _ he₀, s₀, hs₀, hle, hacc, fun e' he' s' hs' hle' => ?_⟩
      rcases List.mem_cons.mp he' with rfl | he'
      · rw [hs] at hs'
        cases hs'
      · exact hbefore e' he' s' hs' hle'
  | some s =>
    rw [finish_eq hs (hfits s hs)]
    dsimp only
    split
    · rename_i hv
      rcases H with ⟨hacc, hnone⟩ | ⟨e₀, he₀, s₀, hs₀, hle, hacc, hbefore⟩
      · refine .inl ⟨hacc, fun e' he' s' hs' => ?_⟩
        rcases List.mem_cons.mp he' with rfl | he'
        · rw [hs, Option.some.injEq] at hs'
          omega
        · exact hnone e' he' s' hs'
      · refine .inr ⟨e₀, List.mem_cons_of_mem _ he₀, s₀, hs₀, hle, hacc, fun e' he' s' hs' hle' => ?_⟩
        rcases List.mem_cons.mp he' with rfl | he'
        · rw [hs, Option.some.injEq] at hs'
          omega
        · exact hbefore e' he' s' hs' hle'
    · rename_i hv
      have hself : Before (s + 2 * slotSize e.1) e.1 (s + 2 * slotSize e.1) e.1 := .inr ⟨rfl, le_rfl⟩
      split
      · rename_i hf
        refine .inr ⟨e, List.mem_cons_self, s, hs, Nat.le_of_not_lt hv, rfl, fun e' he' s' hs' hle' => ?_⟩
        rcases List.mem_cons.mp he' with rfl | he'
        · rw [hs, Option.some.injEq] at hs'
          rw [← hs']
          exact hself
        · have hlt' := hlt e' he'
          rcases H with ⟨-, hnone⟩ | ⟨e₀, he₀, s₀, hs₀, hle, rfl, hbefore⟩
          · exact absurd (hnone e' he' s' hs') (Nat.not_lt.mpr hle')
          · have hb := hbefore e' he' s' hs' hle'
            unfold Before at hb ⊢
            omega
      · rename_i hf
        rcases H with ⟨rfl, -⟩ | ⟨e₀, he₀, s₀, hs₀, hle, hacc, hbefore⟩
        · have := hfits s hs
          simp only [u64Max] at hf
          omega
        · refine .inr ⟨e₀, List.mem_cons_of_mem _ he₀, s₀, hs₀, hle, hacc, fun e' he' s' hs' hle' => ?_⟩
          rcases List.mem_cons.mp he' with rfl | he'
          · rw [hs, Option.some.injEq] at hs'
            rw [hacc] at hf
            unfold Before
            dsimp only at hf
            omega
          · exact hbefore e' he' s' hs' hle'

theorem walked_foldr {v : Nat} {l : List (Nat × Group K)} (hsorted : l.Pairwise (·.1 < ·.1))
    (hfits : ∀ e ∈ l, ∀ s, Group.start e.2 = some s → s + 2 * slotSize e.1 < 2 ^ 64) :
    Walked v l (l.foldr (fun e acc => pickStep v acc e) (u64Max, none)) := by
  induction l with
  | nil => exact .inl ⟨rfl, fun e he => by cases he⟩
  | cons e l ih =>
    obtain ⟨hlt, hl⟩ := List.pairwise_cons.mp hsorted
    exact (ih hl fun e' he' => hfits e' (List.mem_cons_of_mem _ he')).step hlt
      (hfits e List.mem_cons_self)

/-- The group that the walk picks is the one the rule selects. -/
theorem selects_of_pickGroup {q : Qfq K} {idx : Nat} (hfits : FinishesFit q.groups)
    (h : q.pickGroup.2 = some idx) : Selects q.groups q.pickGroup.1.v idx := by
  unfold pickGroup at h ⊢
  split at h
  · cases h
  rename_i hne
  rw [if_neg hne]
  dsimp only at h ⊢
  rw [List.foldl_reverse] at h
  have H := walked_foldr (v := q.jumpV) q.groups.sorted fun e he s hs =>
    hfits e.1 s (starts_iff.mpr ⟨e.2, he, hs⟩)
  rcases H with ⟨hacc, -⟩ | ⟨e, he, s, hs, hle, hacc, hbefore⟩
  · rw [hacc] at h
    cases h
  · rw [hacc] at h
    cases h
    refine ⟨s, starts_iff.mpr ⟨e.2, he, hs⟩, hle, fun idx' s' hst hle' => ?_⟩
    obtain ⟨g', hg', hs'⟩ := starts_iff.mp hst
    exact hbefore (idx', g') hg' s' hs' hle'

theorem raised_jumpV (q : Qfq K) : Raised q.groups q.v q.jumpV where
  started h := by
    obtain ⟨idx, s, hst, hle⟩ := h
    obtain ⟨g, hg, hs⟩ := starts_iff.mp hst
    have hany : (q.groups.entries.filterMap fun e => Group.start e.2).any (· ≤ q.v) = true :=
      List.any_eq_true.mpr ⟨s, List.mem_filterMap.mpr ⟨(idx, g), hg, hs⟩, by simpa using hle⟩
    unfold jumpV
    dsimp only
    rw [if_pos hany]
  least h idx s hst := by
    obtain ⟨g, hg, hs⟩ := starts_iff.mp hst
    have hany : ¬(q.groups.entries.filterMap fun e => Group.start e.2).any (· ≤ q.v) = true := by
      rw [List.any_eq_true]
      rintro ⟨s', hmem, hle⟩
      obtain ⟨e, he, hs'⟩ := List.mem_filterMap.mp hmem
      exact h ⟨e.1, s', starts_iff.mpr ⟨e.2, he, hs'⟩, of_decide_eq_true hle⟩
    have hmem : s ∈ q.groups.entries.filterMap fun e => Group.start e.2 :=
      List.mem_filterMap.mpr ⟨(idx, g), hg, hs⟩
    unfold jumpV
    dsimp only
    rw [if_neg hany]
    cases hmin : (q.groups.entries.filterMap fun e => Group.start e.2).min? with
    | none =>
      rw [List.min?_eq_none_iff.mp hmin] at hmem
      cases hmem
    | some m =>
      obtain ⟨e, he, hm⟩ := List.mem_filterMap.mp (List.min?_mem hmin)
      have hstm : Starts q.groups e.1 m := starts_iff.mpr ⟨e.2, he, hm⟩
      have hv : q.v ≤ m := Nat.le_of_lt (Nat.lt_of_not_le fun hle => h ⟨e.1, m, hstm, hle⟩)
      dsimp only
      rw [max_eq_right hv]
      exact ⟨(List.min?_eq_some_iff.mp hmin).2 s hmem, e.1, hstm⟩
  idle h := by
    have hnil : (q.groups.entries.filterMap fun e => Group.start e.2) = [] := by
      refine List.filterMap_eq_nil_iff.mpr fun e he => ?_
      rw [Option.eq_none_iff_forall_ne_some]
      exact fun s hs => h e.1 s (starts_iff.mpr ⟨e.2, he, hs⟩)
    unfold jumpV
    rw [hnil]
    rfl

theorem le_jumpV (q : Qfq K) : q.v ≤ q.jumpV := by
  unfold jumpV
  dsimp only
  split
  · exact Nat.le_refl _
  · split
    · exact Nat.le_max_left ..
    · exact Nat.le_refl _

theorem peek_v (q : Qfq K) : q.peek.1.v = if q.groups.isEmpty then q.v else q.jumpV := by
  unfold peek pickGroup
  split <;> rfl

theorem raised_peek (q : Qfq K) : Raised q.groups q.v q.peek.1.v := by
  rw [peek_v]
  split
  · rename_i hempty
    have hnone : ∀ idx s, ¬Starts q.groups idx s := by
      rintro idx s ⟨g, hg, -⟩
      rw [OrdMap.isEmpty_iff.mp hempty idx] at hg
      cases hg
    exact ⟨fun _ => rfl, fun _ idx s h => absurd h (hnone idx s), fun _ => rfl⟩
  · exact raised_jumpV q

/-- A pick names the front of the first slot of the group it picked. -/
theorem peek_eq_some {q : Qfq K} {k : K} (h : q.peek.2 = some k) :
    ∃ idx g key rest slots, q.pickGroup.2 = some idx ∧ q.groups.get? idx = some g ∧
      g.entries = (key, k :: rest) :: slots := by
  have hgroups : q.pickGroup.1.groups = q.groups := by
    unfold pickGroup
    split <;> rfl
  unfold peek at h
  simp only [Option.bind_eq_some_iff, hgroups] at h
  obtain ⟨idx, hidx, g, hg, slot, hslot, hk⟩ := h
  obtain ⟨slots, hentries⟩ := List.head?_eq_some_iff.mp hslot
  obtain ⟨rest, hqueue⟩ := List.head?_eq_some_iff.mp hk
  exact ⟨idx, g, slot.1, rest, slots, hidx, hg, by rw [hentries, ← hqueue]⟩

theorem pickGroup_v (q : Qfq K) : q.pickGroup.1.v = q.peek.1.v := rfl

variable [DecidableEq K]

/-! ## Where groups start -/

/-- A group starts where one of its flows waits. -/
theorem Wf.of_starts {q : Qfq K} (W : q.Wf) {idx s : Nat} (h : Starts q.groups idx s) :
    ∃ k flow, q.flows.lookup k = some flow ∧ flow.group = idx ∧ s = slotKey flow.s idx := by
  obtain ⟨g, hg, hs⟩ := h
  obtain ⟨slot, k, hslot, hk⟩ := Placed.exists_head W hg
  have hplace := Placed.head W hg hslot hk
  obtain ⟨flow, hflow, hplace⟩ := Option.bind_eq_some_iff.mp hplace
  unfold place at hplace
  split at hplace
  · rw [Option.some.injEq, Prod.mk.injEq] at hplace
    rw [Group.start, hslot, Option.map_some, Option.some.injEq] at hs
    exact ⟨k, flow, hflow, hplace.1, by rw [← hs, ← hplace.1, hplace.2]⟩
  · cases hplace

/-- The group of a flow that waits starts no later than the flow. -/
theorem Wf.exists_starts {q : Qfq K} {k : K} {flow : Flow} (W : q.Wf)
    (hk : q.flows.lookup k = some flow)
    (hb : flow.backlogged = true) :
    ∃ s, Starts q.groups flow.group s ∧ s ≤ slotKey flow.s flow.group := by
  have hplace : q.placeOf k = some (flow.group, slotKey flow.s flow.group) := by
    rw [placeOf, hk, Option.bind_some, place, if_pos hb]
  have hmem := (Placed.mem_iff W).mpr hplace
  obtain ⟨g, hg⟩ := Option.isSome_iff_exists.mp (Placed.group_isSome W hplace)
  unfold slotAt at hmem
  rw [hg, Option.bind_some] at hmem
  obtain ⟨l, hl⟩ : ∃ l, OrdMap.get? g (slotKey flow.s flow.group) = some l := by
    cases h : OrdMap.get? g (slotKey flow.s flow.group) with
    | none =>
      rw [h] at hmem
      cases hmem
    | some l => exact ⟨l, rfl⟩
  have hentry := OrdMap.get?_eq_some.mp hl
  have hsorted := g.sorted
  unfold Starts Group.start
  cases hentries : g.entries with
  | nil =>
    rw [hentries] at hentry
    cases hentry
  | cons e slots =>
    refine ⟨e.1, ⟨g, hg, by rw [hentries]; rfl⟩, ?_⟩
    rw [hentries] at hentry hsorted
    rcases List.mem_cons.mp hentry with h | h
    · rw [← h]
    · exact ((List.pairwise_cons.mp hsorted).1 _ h).le

/-! ## The clock -/

/-- The addition of an operation to the clock stays below `2 ^ 64`. -/
def clockFits (q : Qfq K) : Op K → Bool
  | .served k len _ => (q.flows.lookup k).all fun flow =>
    !flow.backlogged || q.wsum == 0 || decide (q.v + len.toNat * oneFp / q.wsum < 2 ^ 64)
  | _ => true

/-- The clock did not run back, or a rebase set it and every timestamp back together. -/
def Onward (q q' : Qfq K) : Prop :=
  q.v ≤ q'.v ∨ ∃ p : Qfq K, q' = p.maybeRebase ∧ q.v ≤ p.v ∧ rebaseAt ≤ p.v ∧ q'.v = rebaseTo ∧
    ∀ k, q'.flows.lookup k = (p.flows.lookup k).map (Flow.shift (p.v - q'.v))

theorem onward_maybeRebase {q p : Qfq K} (h : q.v ≤ p.v) : Onward q p.maybeRebase := by
  obtain ⟨heq, -⟩ | ⟨hle, hv, -, hflows⟩ := maybeRebase_cases p
  · rw [heq]
    exact .inl h
  · refine .inr ⟨p, rfl, h, hle, hv, fun k => ?_⟩
    rw [hflows, hv, Map.lookup_mapValues]

theorem deactivate_v (q : Qfq K) (k : K) : (q.deactivate k).v = q.v := by
  obtain h | ⟨flow, -, -, h⟩ := deactivate_cases q k <;> rw [h]
  rfl

theorem removeFlow_v (q : Qfq K) (k : K) : (q.removeFlow k).v = q.v := by
  rw [← deactivate_v q k]
  unfold removeFlow
  dsimp only
  split <;> rfl

theorem onward_apply {q q' : Qfq K} {op : Op K} (hfits : q.clockFits op = true)
    (H : q.apply op = some q') : Onward q q' := by
  cases op with
  | addFlow k weight lmax =>
    simp only [apply] at H
    split at H
    · cases H
    · cases H
      exact .inl (Nat.le_refl _)
  | removeFlow k =>
    cases H
    exact .inl (removeFlow_v q k).ge
  | activate k headLen =>
    cases H
    obtain h | ⟨flow, -, -, h⟩ := activate_cases q k headLen.toNat <;> rw [h]
    · exact .inl (Nat.le_refl _)
    · refine onward_maybeRebase ?_
      unfold activated
      dsimp only
      split
      · exact Nat.le_max_left ..
      · exact Nat.le_refl _
  | deactivate k =>
    cases H
    exact .inl (deactivate_v q k).ge
  | served k len nextLen =>
    cases H
    obtain h | ⟨flow, hk, hb, h⟩ := served_cases q k len.toNat (nextLen.map UInt32.toNat) <;> rw [h]
    · exact .inl (Nat.le_refl _)
    · refine onward_maybeRebase ?_
      simp only [clockFits, hk, Option.all_some, hb, Bool.not_true, Bool.false_or, Bool.or_eq_true,
        beq_iff_eq, decide_eq_true_eq] at hfits
      unfold advanced
      dsimp only
      split
      · exact Nat.le_refl _
      · rename_i hwsum
        rw [wrap64, Nat.mod_eq_of_lt (hfits.resolve_left hwsum)]
        exact Nat.le_add_right ..
  | peek =>
    cases H
    refine .inl ?_
    rw [peek_v]
    split
    · exact Nat.le_refl _
    · exact le_jumpV q

/-- In every state reached a pick names a flow exactly while one is backlogged, and raises the clock
to the least start where nothing has started. Where the finishes fit in 64 bits, the flow is at the
front of the first slot of the group that the rule selects; where an operation adds to the clock
without overflow, the clock does not run back but in a rebase, which sets every timestamp back with
it. -/
theorem selection_follows_rule {ops : List (Op K)} {q : Qfq K} (H : reached ops = some q) :
    (q.peek.2.isSome = true ↔ ∃ k, q.isActive k = true) ∧
    Raised q.groups q.v q.peek.1.v ∧
    (FinishesFit q.groups → ∀ k, q.peek.2 = some k → ∃ idx g key rest slots,
      Selects q.groups q.peek.1.v idx ∧ q.groups.get? idx = some g ∧
      g.entries = (key, k :: rest) :: slots) ∧
    ∀ op q', q.clockFits op = true → q.apply op = some q' → Onward q q' := by
  have W := wf_reached H
  refine ⟨?_, raised_peek q, fun hfits k hk => ?_, fun op q' hfits H => onward_apply hfits H⟩
  · rw [W.peek_isSome, W.hasBacklog_iff]
  · obtain ⟨idx, g, key, rest, slots, hidx, hg, hentries⟩ := peek_eq_some hk
    exact ⟨idx, g, key, rest, slots, selects_of_pickGroup hfits hidx, hg, hentries⟩

theorem selection_follows_rule_shared : ∃ q, reached (Sample.shared.take 5) = some q ∧
    (∃ idx g key rest slots, Selects q.groups q.peek.1.v idx ∧ q.groups.get? idx = some g ∧
      g.entries = (key, 1 :: rest) :: slots) ∧
    Onward q (q.served 1 50 (some 60)) := by
  obtain ⟨q, hq⟩ := Option.isSome_iff_exists.mp
    (show (reached (Sample.shared.take 5)).isSome = true by decide +kernel)
  have hpeek : (reached (Sample.shared.take 5)).map (fun q => q.peek.2) = some (some 1) := by
    decide +kernel
  have hfits : ∀ q ∈ reached (Sample.shared.take 5), FinishesFit q.groups := by decide +kernel
  have hclock : ∀ q ∈ reached (Sample.shared.take 5),
      q.clockFits (.served 1 50 (some 60)) = true := by decide +kernel
  rw [hq] at hpeek
  cases hpeek' : q.peek.2 with
  | none =>
    rw [Option.map_some, hpeek'] at hpeek
    cases hpeek
  | some k =>
    rw [Option.map_some, hpeek'] at hpeek
    cases hpeek
    obtain ⟨-, -, hselects, honward⟩ := selection_follows_rule hq
    exact ⟨q, hq, hselects (hfits q hq) 1 hpeek', honward _ _ (hclock q hq) rfl⟩

end Qfq

namespace Sample

/-- A flow that was charged 8191 times is alone with its next packet. -/
def late : Qfq Nat := (((charged 8191 0 0).activate 1 (2 ^ 31)).removeFlow 0).peek.1

end Sample

namespace Qfq

theorem activate_charged (s headLen : Nat) :
    (Sample.charged 8191 s headLen).activate 1 (2 ^ 31) =
      (Sample.charged 8191 0 0).activate 1 (2 ^ 31) := by
  rw [activate_eq (AList.lookup_insert _) rfl, activate_eq (AList.lookup_insert _) rfl]
  simp only [activated, Sample.charged, AList.insert_insert]
  rfl

/-- The clock of an instance that a pick raised next to the end of its range wraps at the next
service, which is no rebase. -/
theorem clock_wraps : ∃ (ops : List (Op Nat)) (q q' : Qfq Nat), reached ops = some q ∧
    q.apply (.served 1 (UInt32.ofNat (2 ^ 31)) none) = some q' ∧ q'.v < q.v ∧ ¬Onward q q' := by
  obtain ⟨s, headLen, hrun⟩ := @reached_comingAndGoing 8191 (by decide)
  have hpeek : Automaton.run apply (Sample.charged 8191 s headLen)
      [.activate 1 (UInt32.ofNat (2 ^ 31)), .removeFlow 0, .peek] =
      some Sample.late := by
    rw [Sample.late, ← activate_charged s headLen]
    rfl
  have hv : Sample.late.v = 2 ^ 64 - 2 ^ 51 := by decide +kernel
  have hv' : (Sample.late.served 1 (UInt32.ofNat (2 ^ 31)).toNat none).v = 0 := by decide +kernel
  refine ⟨Sample.comingAndGoing 8191 ++ [.activate 1 (UInt32.ofNat (2 ^ 31)), .removeFlow 0, .peek],
    Sample.late, _, ?_, rfl, ?_, ?_⟩
  · rw [reached, Automaton.run_append, ← reached, hrun]
    exact hpeek
  · rw [hv]
    exact hv'.trans_lt (by decide)
  · rintro (h | ⟨-, -, -, -, h, -⟩)
    · rw [hv] at h
      exact absurd (h.trans hv'.le) (by decide)
    · exact absurd (h.symm.trans hv') (by decide)

end Qfq

end TunnelWeaver.Mux
