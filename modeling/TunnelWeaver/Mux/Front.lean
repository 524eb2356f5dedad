import TunnelWeaver.Mux.Selection

/-! A scheduler whose flows are all in one group. It serves the front of its first slot, and as long
as the clock is not behind that slot, neither a flow that joins nor one that leaves from elsewhere
changes the front. -/

namespace TunnelWeaver.Mux.Qfq

variable {K : Type}

/-- The front of the first slot of the first group. -/
def front (q : Qfq K) : Option K :=
  q.groups.entries.head?.bind fun g => g.2.entries.head?.bind fun slot => slot.2.head?

variable [DecidableEq K]

/-- The length of the packet that a flow announced last. -/
def headLenOf (q : Qfq K) (k : K) : Option Nat := (q.flows.lookup k).map (·.headLen)

/-- The length of the packet of the front. -/
def frontLen (q : Qfq K) : Option Nat := q.front.bind q.headLenOf

/-- All flows are in group `g`, which has started. -/
structure OneGroup (g : Nat) (q : Qfq K) : Prop where
  group : ∀ k flow, q.flows.lookup k = some flow → flow.group = g
  started : ∀ idx s, Starts q.groups idx s → s ≤ q.v

variable {g : Nat} {q q' : Qfq K} {k l : K} {flow : Flow}

/-! ## The only group -/

/-- There is no group, or one with a slot that is not empty. -/
theorem entries_cases (W : q.Wf) (hg : ∀ k flow, q.flows.lookup k = some flow → flow.group = g) :
    q.groups.entries = [] ∨ ∃ grp s k rest slots, q.groups.entries = [(g, grp)] ∧
      grp.entries = (s, k :: rest) :: slots := by
  have hidx : ∀ e ∈ q.groups.entries, e.1 = g := by
    rintro e he
    have hget := OrdMap.get?_eq_some.mpr (show (e.1, e.2) ∈ q.groups.entries from he)
    obtain ⟨slot, k, hslot, hk⟩ := Placed.exists_head W hget
    obtain ⟨flow, hflow, hplace⟩ := Option.bind_eq_some_iff.mp (Placed.head W hget hslot hk)
    unfold place at hplace
    split at hplace
    · rw [Option.some.injEq, Prod.mk.injEq] at hplace
      exact hplace.1.symm.trans (hg k flow hflow)
    · cases hplace
  have hsorted := q.groups.sorted
  cases hentries : q.groups.entries with
  | nil => exact .inl rfl
  | cons e rest =>
    rw [hentries] at hidx hsorted
    have he := hidx e (by simp)
    have hrest : rest = [] := by
      cases rest with
      | nil => rfl
      | cons e' rest =>
        have hlt := (List.pairwise_cons.mp hsorted).1 e' (by simp)
        have := hidx e' (by simp)
        omega
    subst hrest
    obtain ⟨idx, grp⟩ := e
    cases he
    obtain ⟨slot, k, hslot, hk⟩ := Placed.exists_head W
      (OrdMap.get?_eq_some.mpr (show (idx, grp) ∈ q.groups.entries by simp [hentries]))
    obtain ⟨slots, hslots⟩ := List.head?_eq_some_iff.mp hslot
    obtain ⟨queue, hqueue⟩ := List.head?_eq_some_iff.mp hk
    exact .inr ⟨grp, slot.1, k, queue, slots, rfl, by rw [hslots, ← hqueue]⟩

omit [DecidableEq K] in
theorem get?_entries {groups : OrdMap (Group K)} {grp : Group K} (h : groups.entries = [(g, grp)]) :
    groups.get? g = some grp := OrdMap.get?_eq_some.mpr (by simp [h])

omit [DecidableEq K] in
/-- What the only group starts with. -/
theorem starts_iff_of_entries {grp : Group K} {s idx t : Nat} {k : K} {rest : List K}
    {slots : List (Nat × List K)} (hg : q.groups.entries = [(g, grp)])
    (hgrp : grp.entries = (s, k :: rest) :: slots) : Starts q.groups idx t ↔ idx = g ∧ t = s := by
  rw [starts_iff]
  simp only [hg, List.mem_singleton, Prod.mk.injEq, Group.start]
  constructor
  · rintro ⟨_, ⟨rfl, rfl⟩, ht⟩
    rw [hgrp, List.head?_cons, Option.map_some, Option.some.injEq] at ht
    exact ⟨rfl, ht.symm⟩
  · rintro ⟨rfl, rfl⟩
    exact ⟨grp, ⟨rfl, rfl⟩, by rw [hgrp]; rfl⟩

omit [DecidableEq K] in
theorem front_of_entries {grp : Group K} {s : Nat} {k : K} {rest : List K}
    {slots : List (Nat × List K)} (hg : q.groups.entries = [(g, grp)])
    (hgrp : grp.entries = (s, k :: rest) :: slots) : q.front = some k := by
  simp [front, hg, hgrp]

theorem wrap64_le (n : Nat) : wrap64 n ≤ u64Max := Nat.le_of_lt_succ (Nat.mod_lt n (Nat.two_pow_pos 64))

/-- A pick names the front, wherever the clock is. -/
theorem peek_eq_front (W : q.Wf) (hg : ∀ k flow, q.flows.lookup k = some flow → flow.group = g) :
    q.peek.2 = q.front := by
  rcases entries_cases W hg with hnil | ⟨grp, s, k, rest, slots, hentries, hgrp⟩
  · have hempty : q.groups.isEmpty = true := by rw [OrdMap.isEmpty, hnil]; rfl
    simp [peek, pickGroup, hempty, front, hnil]
  have hne : ¬q.groups.isEmpty = true := by simp [OrdMap.isEmpty, hentries]
  have hstart : Group.start grp = some s := by rw [Group.start, hgrp]; rfl
  have hraised := raised_peek q
  have hle : s ≤ q.jumpV := by
    have hs : Starts q.groups g s := (starts_iff_of_entries hentries hgrp).mpr ⟨rfl, rfl⟩
    rw [peek_v, if_neg hne] at hraised
    by_cases hstarted : ∃ idx s, Starts q.groups idx s ∧ s ≤ q.v
    · obtain ⟨idx, t, ht, htv⟩ := hstarted
      rw [hraised.started ⟨idx, t, ht, htv⟩]
      rwa [((starts_iff_of_entries hentries hgrp).mp ht).2] at htv
    · obtain ⟨-, idx, hidx⟩ := hraised.least hstarted g s hs
      rw [((starts_iff_of_entries hentries hgrp).mp hidx).2]
  have hpick : q.pickGroup.2 = some g := by
    unfold pickGroup
    rw [if_neg hne]
    dsimp only
    rw [hentries, List.reverse_singleton, List.foldl_cons, List.foldl_nil, pickStep]
    simp only [Group.finish, hstart, Option.map_some]
    rw [if_neg (Nat.not_lt.mpr hle), if_pos (wrap64_le _)]
  have hgroups : q.pickGroup.1.groups = q.groups := peek_groups q
  rw [front_of_entries hentries hgrp]
  unfold peek
  dsimp only
  rw [hpick, hgroups, Option.bind_some, get?_entries hentries, Option.bind_some, hgrp]
  rfl

theorem nextHeadLen_eq_frontLen (W : q.Wf)
    (hg : ∀ k flow, q.flows.lookup k = some flow → flow.group = g) :
    q.nextHeadLen.2 = q.frontLen := by
  unfold nextHeadLen frontLen
  dsimp only
  rw [peek_eq_front W hg, peek_flows]
  rfl

omit [DecidableEq K] in
theorem front_peek (q : Qfq K) : q.peek.1.front = q.front := by
  unfold front
  rw [peek_groups]

@[simp] theorem headLenOf_peek (q : Qfq K) : q.peek.1.headLenOf = q.headLenOf := by
  unfold headLenOf
  rw [peek_flows]

theorem frontLen_peek (q : Qfq K) : q.peek.1.frontLen = q.frontLen := by
  rw [frontLen, front_peek, headLenOf_peek, frontLen]

/-- After a pick the group has started. -/
theorem oneGroup_peek (W : q.Wf)
    (hg : ∀ k flow, q.flows.lookup k = some flow → flow.group = g) : OneGroup g q.peek.1 where
  group := by rw [peek_flows]; exact hg
  started idx s hs := by
    rw [peek_groups] at hs
    have hraised := raised_peek q
    rcases entries_cases W hg with hnil | ⟨grp, t, k, rest, slots, hentries, hgrp⟩
    · obtain ⟨_, hmem, -⟩ := starts_iff.mp hs
      rw [hnil] at hmem
      cases hmem
    · have hidx := (starts_iff_of_entries hentries hgrp).mp hs
      by_cases hstarted : ∃ idx s, Starts q.groups idx s ∧ s ≤ q.v
      · obtain ⟨i, u, hu, hle⟩ := hstarted
        rw [hraised.started ⟨i, u, hu, hle⟩, hidx.2]
        rwa [((starts_iff_of_entries hentries hgrp).mp hu).2] at hle
      · obtain ⟨-, i, hi⟩ := hraised.least hstarted idx s hs
        rw [((starts_iff_of_entries hentries hgrp).mp hi).2, hidx.2]

/-! ## Flows that come and go -/

theorem OneGroup.ne_front (W : q.Wf) (O : OneGroup g q) (hk : q.isActive k = false) :
    q.front ≠ some k := by
  intro h
  rw [← peek_eq_front W O.group] at h
  rw [W.isActive_of_peek h] at hk
  cases hk

theorem OneGroup.of_insert (O : OneGroup g q) (flow' : Flow) (hflow : flow'.group = g)
    {a : K} {f : Flow} (ha : (q.flows.insert k flow').lookup a = some f) : f.group = g := by
  rw [Map.lookup_insert_ite] at ha
  split at ha
  · cases ha
    exact hflow
  · exact O.group a f ha

omit [DecidableEq K] in
/-- The first slot, when a flow joins no earlier slot. -/
theorem alterEntries_insert {s key : Nat} {k l : K} {rest : List K} {slots : List (Nat × List K)}
    (hle : s ≤ key) : ∃ rest' slots', OrdMap.alterEntries key (fun o => some (o.getD [] ++ [l]))
      ((s, k :: rest) :: slots) = (s, k :: rest') :: slots' := by
  unfold OrdMap.alterEntries
  rw [if_neg (Nat.not_lt.mpr hle)]
  split
  · rename_i h
    subst h
    exact ⟨rest ++ [l], slots, rfl⟩
  · exact ⟨rest, _, rfl⟩

/-- The first slot, when a flow other than its front leaves. -/
theorem alterEntries_erase {s key : Nat} {k l : K} {rest : List K} {slots : List (Nat × List K)}
    (hne : k ≠ l) : ∃ rest' slots', OrdMap.alterEntries key (Group.eraseSlot l)
      ((s, k :: rest) :: slots) = (s, k :: rest') :: slots' := by
  unfold OrdMap.alterEntries
  split
  · exact ⟨rest, slots, rfl⟩
  split
  · rename_i h
    subst h
    refine ⟨rest.erase l, slots, ?_⟩
    have herase : (k :: rest).erase l = k :: rest.erase l := List.erase_cons_tail (by simpa using hne)
    simp [Group.eraseSlot, herase, OrdMap.slot]
  · exact ⟨rest, _, rfl⟩

/-- A flow that joins does not change the front. -/
theorem OneGroup.activated {n : Nat} (W : q.Wf) (O : OneGroup g q) (hk : q.flows.lookup k = some flow)
    (hb : q.hasBacklog = true) : OneGroup g (q.activated k flow n) ∧
      (q.activated k flow n).front = q.front ∧ (q.activated k flow n).v = q.v := by
  have hgroup := O.group k flow hk
  have hv : (q.activated k flow n).v = q.v := by
    have hempty : q.groups.isEmpty = false := by simpa [hasBacklog] using hb
    simp [Qfq.activated, hempty]
  rcases entries_cases W O.group with hnil | ⟨grp, s, l, rest, slots, hentries, hgrp⟩
  · simp [hasBacklog, OrdMap.isEmpty, hnil] at hb
  have hs : s ≤ q.v := O.started g s ((starts_iff_of_entries hentries hgrp).mpr ⟨rfl, rfl⟩)
  have hkey : s ≤ slotKey (max flow.f q.v) g := by
    obtain ⟨_, f, -, -, heq⟩ :=
      W.of_starts ((starts_iff_of_entries hentries hgrp).mpr ⟨rfl, rfl⟩)
    have hmono := slotKey_mono (hs.trans (Nat.le_max_right flow.f q.v)) g
    rwa [heq, slotKey_slotKey, ← heq] at hmono
  obtain ⟨rest', slots', hgrp'⟩ := @alterEntries_insert K s _ l k rest slots hkey
  have hentries' : (q.activated k flow n).groups.entries =
      [(g, Group.insert grp (slotKey (max flow.f q.v) g) k)] := by
    simp [Qfq.activated, enqueue, OrdMap.alter, OrdMap.alterEntries, OrdMap.slot, hentries, hgroup,
      Flow.activated]
  have hgrp'' : (Group.insert grp (slotKey (max flow.f q.v) g) k).entries =
      (s, l :: rest') :: slots' := by
    change OrdMap.alterEntries _ _ grp.entries = _
    rw [hgrp]
    exact hgrp'
  refine ⟨⟨fun a f ha => O.of_insert (flow.activated q.v n) hgroup ha, fun idx t ht => ?_⟩, ?_, hv⟩
  · rw [((starts_iff_of_entries hentries' hgrp'').mp ht).2, hv]
    exact hs
  · rw [front_of_entries hentries' hgrp'', front_of_entries hentries hgrp]

/-- A flow other than the front that leaves does not change the front. -/
theorem OneGroup.withdrawn (W : q.Wf) (O : OneGroup g q) (hk : q.flows.lookup k = some flow)
    (hb : flow.backlogged = true) (hne : q.front ≠ some k) :
    OneGroup g (q.withdrawn k flow) ∧ (q.withdrawn k flow).front = q.front := by
  have hgroup := O.group k flow hk
  rcases entries_cases W O.group with hnil | ⟨grp, s, l, rest, slots, hentries, hgrp⟩
  · have hbacklog := W.hasBacklog_iff.mpr ⟨k, by simp [isActive, hk, hb]⟩
    simp [hasBacklog, OrdMap.isEmpty, hnil] at hbacklog
  have hs : s ≤ q.v := O.started g s ((starts_iff_of_entries hentries hgrp).mpr ⟨rfl, rfl⟩)
  rw [front_of_entries hentries hgrp] at hne ⊢
  obtain ⟨rest', slots', hgrp'⟩ := @alterEntries_erase K _ s (slotKey flow.s g) l k rest slots
    fun h => hne (congrArg some h)
  have hgrp'' : (Group.remove grp (slotKey flow.s g) k).entries = (s, l :: rest') :: slots' := by
    change OrdMap.alterEntries _ _ grp.entries = _
    rw [hgrp]
    exact hgrp'
  have hentries' : (q.withdrawn k flow).groups.entries =
      [(g, Group.remove grp (slotKey flow.s g) k)] := by
    simp [Qfq.withdrawn, OrdMap.alter, OrdMap.alterEntries, OrdMap.slot, hentries, hgroup, moveSlot,
      keepGroup, OrdMap.isEmpty, hgrp'']
  refine ⟨⟨fun a f ha => O.of_insert { flow with backlogged := false } hgroup ha,
    fun idx t ht => ?_⟩, front_of_entries hentries' hgrp''⟩
  rw [((starts_iff_of_entries hentries' hgrp'').mp ht).2]
  exact hs

/-! ## Announced lengths -/

theorem headLenOf_insert {flow' : Flow} {groups : OrdMap (Group K)} {v wsum : Nat} (a : K) :
    headLenOf ⟨q.flows.insert k flow', groups, v, wsum⟩ a =
      if a = k then some flow'.headLen else q.headLenOf a := by
  unfold headLenOf
  rw [Map.lookup_insert_ite]
  split <;> rfl

theorem headLenOf_maybeRebase (q : Qfq K) : q.maybeRebase.headLenOf = q.headLenOf := by
  obtain ⟨h, -⟩ | ⟨-, -, -, h⟩ := maybeRebase_cases q
  · rw [h]
  · obtain ⟨d, hd⟩ : ∃ d, q.v - rebaseTo = d := ⟨_, rfl⟩
    rw [hd] at h
    funext k
    rw [headLenOf, headLenOf, h, Map.lookup_mapValues, Option.map_map]
    rfl

theorem headLenOf_activate (n : Nat) (a : K) : (q.activate k n).headLenOf a =
    if a = k ∧ q.isActive k = false ∧ q.contains k = true then some n else q.headLenOf a := by
  obtain ⟨hk, h⟩ | ⟨flow, hk, hb, h⟩ | ⟨flow, hk, hb, h⟩ : (q.flows.lookup k = none ∧
      q.activate k n = q) ∨ (∃ flow, q.flows.lookup k = some flow ∧ flow.backlogged = true ∧
      q.activate k n = q) ∨ ∃ flow, q.flows.lookup k = some flow ∧ flow.backlogged = false ∧
      q.activate k n = (q.activated k flow n).maybeRebase := by
    cases hk : q.flows.lookup k with
    | none =>
      refine .inl ⟨rfl, ?_⟩
      simp only [activate, hk]
    | some flow =>
      cases hb : flow.backlogged with
      | true =>
        refine .inr (.inl ⟨flow, rfl, hb, ?_⟩)
        simp only [activate, hk, hb, if_true]
      | false => exact .inr (.inr ⟨flow, rfl, hb, activate_eq hk hb n⟩)
  · rw [h, if_neg (by simp [contains, hk])]
  · rw [h, if_neg (by simp [isActive, hk, hb])]
  · rw [h, headLenOf_maybeRebase, Qfq.activated, headLenOf_insert]
    simp [isActive, contains, hk, hb, Flow.activated]

theorem headLenOf_deactivate (k : K) : (q.deactivate k).headLenOf = q.headLenOf := by
  obtain h | ⟨flow, hk, -, h⟩ := deactivate_cases q k
  · rw [h]
  · funext a
    rw [h, Qfq.withdrawn, headLenOf_insert]
    split
    · rename_i hak
      rw [hak, headLenOf, hk]
      rfl
    · rfl

theorem headLenOf_removeFlow {a : K} (hne : a ≠ k) :
    (q.removeFlow k).headLenOf a = q.headLenOf a := by
  refine Eq.trans ?_ (congrFun (headLenOf_deactivate k) a)
  unfold removeFlow
  dsimp only
  split
  · rfl
  · unfold headLenOf
    rw [Map.lookup_erase_ite, if_neg hne]

theorem headLenOf_served {len : Nat} {nextLen : Option Nat} (hk : q.isActive k = true) (a : K) :
    (q.served k len nextLen).headLenOf a = if a = k then some (nextLen.getD 0) else q.headLenOf a := by
  obtain ⟨flow, hflow, hb⟩ := (Option.any_eq_true _ _).mp hk
  rw [served_eq hflow hb, headLenOf_maybeRebase, Qfq.advanced, headLenOf_insert]
  cases nextLen <;> rfl

theorem headLenOf_addFlow {weight lmax : Nat} {a : K} (hne : a ≠ k) :
    (q.addFlow k weight lmax).headLenOf a = q.headLenOf a := by
  unfold addFlow
  dsimp only
  rw [headLenOf_insert, if_neg hne]

/-! ## Operations -/

theorem group_maybeRebase (hg : ∀ k flow, q.flows.lookup k = some flow → flow.group = g) :
    ∀ k flow, q.maybeRebase.flows.lookup k = some flow → flow.group = g := by
  intro k flow hk
  obtain ⟨h, -⟩ | ⟨-, -, -, h⟩ := maybeRebase_cases q
  · rw [h] at hk
    exact hg k flow hk
  · obtain ⟨d, hd⟩ : ∃ d, q.v - rebaseTo = d := ⟨_, rfl⟩
    rw [hd] at h
    rw [h, Map.lookup_mapValues] at hk
    obtain ⟨flow', hk', rfl⟩ := Option.map_eq_some_iff.mp hk
    exact hg k flow' hk'

namespace OneGroup

theorem group_activate (O : OneGroup g q) (n : Nat) :
    ∀ a f, (q.activate k n).flows.lookup a = some f → f.group = g := by
  obtain h | ⟨flow, hk, -, h⟩ := activate_cases q k n
  · rw [h]
    exact O.group
  · rw [h]
    exact group_maybeRebase fun a f ha => O.of_insert (flow.activated q.v n) (O.group k flow hk) ha

theorem group_served (O : OneGroup g q) (len : Nat) (nextLen : Option Nat) :
    ∀ a f, (q.served k len nextLen).flows.lookup a = some f → f.group = g := by
  obtain h | ⟨flow, hk, -, h⟩ := served_cases q k len nextLen
  · rw [h]
    exact O.group
  · rw [h]
    refine group_maybeRebase fun a f ha => O.of_insert (flow.advanced nextLen) ?_ ha
    cases nextLen <;> exact O.group k flow hk

theorem group_removeFlow (O : OneGroup g q) (k : K) :
    ∀ a f, (q.removeFlow k).flows.lookup a = some f → f.group = g := by
  have hgroup : ∀ a f, (q.deactivate k).flows.lookup a = some f → f.group = g := by
    obtain h | ⟨flow, hk, -, h⟩ := deactivate_cases q k
    · rw [h]
      exact O.group
    · rw [h]
      exact fun a f ha => O.of_insert { flow with backlogged := false } (O.group k flow hk) ha
  intro a f ha
  unfold Qfq.removeFlow at ha
  dsimp only at ha
  split at ha
  · exact hgroup a f ha
  · rw [Map.lookup_erase_ite] at ha
    split at ha
    · cases ha
    · exact hgroup a f ha

theorem activate {n : Nat} (W : q.Wf) (O : OneGroup g q) (hb : q.hasBacklog = true)
    (hv : q.v < rebaseAt) : OneGroup g (q.activate k n) ∧ (q.activate k n).frontLen = q.frontLen := by
  obtain h | ⟨flow, hk, hidle, h⟩ := activate_cases q k n
  · rw [h]
    exact ⟨O, rfl⟩
  obtain ⟨O', hfront, hv'⟩ := O.activated (n := n) W hk hb
  have hrebase : (q.activated k flow n).maybeRebase = q.activated k flow n := if_pos (hv' ▸ hv)
  have hne := O.ne_front W (k := k) (by simp [isActive, hk, hidle])
  rw [h, hrebase]
  refine ⟨O', ?_⟩
  unfold frontLen
  rw [hfront]
  cases hf : q.front with
  | none => rfl
  | some a =>
    have hak : a ≠ k := fun heq => hne (heq ▸ hf)
    exact (headLenOf_insert a).trans (if_neg hak)

theorem deactivate (W : q.Wf) (O : OneGroup g q) (hne : q.front ≠ some k) :
    OneGroup g (q.deactivate k) ∧ (q.deactivate k).front = q.front := by
  obtain h | ⟨flow, hk, hb, h⟩ := deactivate_cases q k
  · rw [h]
    exact ⟨O, rfl⟩
  · rw [h]
    exact O.withdrawn W hk hb hne

theorem removeFlow (W : q.Wf) (O : OneGroup g q) (hne : q.front ≠ some k) :
    OneGroup g (q.removeFlow k) ∧ (q.removeFlow k).frontLen = q.frontLen := by
  obtain ⟨O', hfront⟩ := O.deactivate W hne
  have hfront' : (q.removeFlow k).front = q.front := by
    rw [← hfront]
    unfold Qfq.removeFlow
    dsimp only
    split <;> rfl
  refine ⟨?_, ?_⟩
  · refine ⟨O.group_removeFlow k, ?_⟩
    have hstarted := O'.started
    unfold Qfq.removeFlow
    dsimp only
    split <;> exact hstarted
  · unfold frontLen
    rw [hfront']
    cases hf : q.front with
    | none => rfl
    | some a => exact headLenOf_removeFlow fun heq => hne (heq ▸ hf)

/-- Nothing waits, so nothing has to have started. -/
theorem removeFlow_idle (O : OneGroup g q) (hb : (q.removeFlow k).hasBacklog = false) :
    OneGroup g (q.removeFlow k) where
  group := O.group_removeFlow k
  started idx s hs := by
    obtain ⟨grp, hgrp, -⟩ := hs
    have hempty : (q.removeFlow k).groups.isEmpty = true := by simpa [hasBacklog] using hb
    rw [OrdMap.isEmpty_iff.mp hempty idx] at hgrp
    cases hgrp

theorem addFlow {weight lmax : Nat} (W : q.Wf) (O : OneGroup g q) (hk : q.contains k = false)
    (hgroup : groupIndex (max lmax 1) (oneFp / max weight 1) = g) :
    OneGroup g (q.addFlow k weight lmax) ∧ (q.addFlow k weight lmax).frontLen = q.frontLen := by
  refine ⟨⟨fun a f ha => ?_, O.started⟩, ?_⟩
  · unfold Qfq.addFlow at ha
    exact O.of_insert _ hgroup ha
  have hidle : q.isActive k = false := Bool.eq_false_iff.mpr fun h => by
    rw [contains_of_isActive h] at hk
    cases hk
  have hne := O.ne_front W hidle
  change q.front.bind _ = q.front.bind _
  cases hf : q.front with
  | none => rfl
  | some a => exact headLenOf_addFlow fun heq => hne (heq ▸ hf)

end OneGroup

end TunnelWeaver.Mux.Qfq
