import TunnelWeaver.Mux.Sched

/-! What the schedulers hold. `Qfq.Wf` says that a backlogged flow waits in exactly one slot, the one
its start time names, that no other flow waits in any, and that no group or slot is left behind
empty. Every operation keeps it, and with it a pick finds a flow whenever there is one. -/

namespace TunnelWeaver.Mux

/-! ## Slots -/

namespace Group
variable {K : Type}

theorem get?_insert (g : Group K) (key : Nat) (k : K) (key' : Nat) :
    OrdMap.get? (insert g key k) key' =
      if key' = key then some ((OrdMap.get? g key).getD [] ++ [k]) else OrdMap.get? g key' :=
  OrdMap.get?_alter ..

theorem getD_eraseSlot [DecidableEq K] (k : K) (q : Option (List K)) :
    (eraseSlot k q).getD [] = (q.getD []).erase k := by
  cases q with
  | none => rfl
  | some q =>
    simp only [eraseSlot, Option.getD_some]
    split
    · rename_i h
      exact (List.isEmpty_iff.mp h).symm
    · rfl

theorem get?_remove [DecidableEq K] (g : Group K) (key : Nat) (k : K) (key' : Nat) :
    OrdMap.get? (remove g key k) key' =
      if key' = key then eraseSlot k (OrdMap.get? g key) else OrdMap.get? g key' :=
  OrdMap.get?_alter ..

/-- No slot is empty. -/
def Tight (g : Group K) : Prop := ∀ key, OrdMap.get? g key ≠ some []

theorem Tight.empty : Tight (.empty : Group K) := by
  rintro key ⟨⟩

theorem Tight.insert {g : Group K} (T : Tight g) (key : Nat) (k : K) : Tight (insert g key k) := by
  intro key' h
  rw [get?_insert] at h
  split at h
  · simp at h
  · exact T key' h

theorem Tight.remove [DecidableEq K] {g : Group K} (T : Tight g) (key : Nat) (k : K) :
    Tight (remove g key k) := by
  intro key' h
  rw [get?_remove] at h
  split at h
  · unfold eraseSlot at h
    split at h
    · cases h
    · split at h
      · cases h
      · rename_i hne
        rw [Option.some.inj h] at hne
        exact hne rfl
  · exact T key' h

theorem insert_ne_empty (g : Group K) (key : Nat) (k : K) : (insert g key k).isEmpty = false := by
  refine Bool.eq_false_iff.mpr fun h => ?_
  have := OrdMap.isEmpty_iff.mp h key
  rw [get?_insert, if_pos rfl] at this
  cases this

end Group

namespace Qfq
variable {K : Type}

/-- The flows waiting in slot `key` of group `idx`. -/
def slotAt (groups : OrdMap (Group K)) (idx key : Nat) : List K :=
  ((groups.get? idx).bind fun g => OrdMap.get? g key).getD []

/-- No group and no slot is empty. -/
def Tight (groups : OrdMap (Group K)) : Prop :=
  ∀ idx g, groups.get? idx = some g → g.isEmpty = false ∧ Group.Tight g

theorem slotAt_alter (groups : OrdMap (Group K)) (idx : Nat)
    (f : Option (Group K) → Option (Group K)) (i j : Nat) :
    slotAt (groups.alter idx f) i j =
      if i = idx then ((f (groups.get? idx)).bind fun g => OrdMap.get? g j).getD []
      else slotAt groups i j := by
  unfold slotAt
  rw [OrdMap.get?_alter]
  split <;> rfl

theorem slotAt_enqueue (groups : OrdMap (Group K)) (k : K) (flow : Flow) (i j : Nat) :
    slotAt (enqueue groups k flow) i j = slotAt groups i j ++
      if i = flow.group ∧ j = slotKey flow.s flow.group then [k] else [] := by
  unfold enqueue
  rw [slotAt_alter]
  split
  · rename_i hi
    subst hi
    rw [Option.bind_some, Group.get?_insert]
    have hget : ∀ j, (OrdMap.get? ((groups.get? flow.group).getD .empty) j).getD [] =
        slotAt groups flow.group j := by
      intro j
      unfold slotAt
      cases groups.get? flow.group <;> rfl
    split
    · rename_i hj
      subst hj
      rw [Option.getD_some, hget, if_pos ⟨rfl, rfl⟩]
    · rename_i hj
      rw [hget, if_neg fun h => hj h.2, List.append_nil]
  · rename_i hi
    rw [if_neg fun h => hi h.1, List.append_nil]

theorem Tight.enqueue {groups : OrdMap (Group K)} (T : Tight groups) (k : K) (flow : Flow) :
    Tight (enqueue groups k flow) := by
  intro idx g h
  unfold Qfq.enqueue at h
  rw [OrdMap.get?_alter] at h
  split at h
  · obtain rfl := Option.some.inj h
    refine ⟨Group.insert_ne_empty .., .insert ?_ _ _⟩
    cases hg : groups.get? flow.group with
    | none => exact .empty
    | some g => exact (T _ g hg).2
  · exact T idx g h

theorem keepGroup_get? (g : Group K) (j : Nat) :
    ((keepGroup g).bind fun g => OrdMap.get? g j).getD [] = (OrdMap.get? g j).getD [] := by
  unfold keepGroup
  split
  · rename_i h
    rw [OrdMap.isEmpty_iff.mp h j]
    rfl
  · rfl

variable [DecidableEq K]

theorem slotAt_moveSlot {groups : OrdMap (Group K)} {k : K} {idx key : Nat} {key' : Option Nat}
    (hg : (groups.get? idx).isSome) (i j : Nat) :
    slotAt (groups.alter idx (moveSlot k key key')) i j =
      (if i = idx ∧ j = key then (slotAt groups i j).erase k else slotAt groups i j) ++
        if i = idx ∧ key' = some j then [k] else [] := by
  obtain ⟨g, hg⟩ := Option.isSome_iff_exists.mp hg
  rw [slotAt_alter]
  by_cases hi : i = idx
  · subst hi
    have hslot : slotAt groups i j = (OrdMap.get? g j).getD [] := by simp [slotAt, hg]
    have hremove : (OrdMap.get? (g.remove key k) j).getD [] =
        if j = key then (slotAt groups i j).erase k else slotAt groups i j := by
      rw [Group.get?_remove, hslot]
      split
      · rename_i hj
        subst hj
        exact Group.getD_eraseSlot ..
      · rfl
    simp only [if_true, hg, moveSlot, true_and, keepGroup_get?]
    cases key' with
    | none => simp [hremove]
    | some key' =>
      dsimp only
      rw [Group.get?_insert]
      by_cases hj : j = key'
      · subst hj
        rw [if_pos rfl, if_pos rfl, Option.getD_some, hremove]
      · have hne : ¬some key' = some j := fun h => hj (Option.some.inj h).symm
        simp only [hj, hne, if_false, List.append_nil, hremove]
  · rw [if_neg hi, if_neg fun h => hi h.1, if_neg fun h => hi h.1, List.append_nil]

theorem Tight.moveSlot {groups : OrdMap (Group K)} (T : Tight groups) (k : K) (idx key : Nat)
    (key' : Option Nat) : Tight (groups.alter idx (moveSlot k key key')) := by
  intro i g h
  rw [OrdMap.get?_alter] at h
  split at h
  · cases hg : groups.get? idx with
    | none =>
      rw [hg] at h
      cases h
    | some g₀ =>
      rw [hg] at h
      have hkeep : ∀ {g₁ : Group K}, Group.Tight g₁ → keepGroup g₁ = some g →
          g.isEmpty = false ∧ Group.Tight g := by
        intro g₁ T₁ hk
        unfold keepGroup at hk
        split at hk
        · cases hk
        · rename_i hne
          cases hk
          exact ⟨Bool.eq_false_iff.mpr hne, T₁⟩
      have T₁ := (T _ _ hg).2.remove key k
      cases key' with
      | none => exact hkeep T₁ h
      | some key' => exact hkeep (T₁.insert key' k) h
  · exact T i g h

/-! ## Placed flows -/

/-- Each flow waits in the one slot `p` gives it. -/
structure Placed (p : K → Option (Nat × Nat)) (groups : OrdMap (Group K)) : Prop where
  tight : Tight groups
  count : ∀ i j k, (slotAt groups i j).count k = if p k = some (i, j) then 1 else 0

namespace Placed
variable {p p' : K → Option (Nat × Nat)} {groups : OrdMap (Group K)} {k : K} {i j : Nat}

theorem empty : Placed (fun _ => none) (.empty : OrdMap (Group K)) where
  tight := (by rintro idx g ⟨⟩)
  count _ _ _ := rfl

theorem mem_iff (H : Placed p groups) : k ∈ slotAt groups i j ↔ p k = some (i, j) := by
  rw [← List.count_pos_iff, H.count]
  split <;> simp_all

theorem group_isSome (H : Placed p groups) (h : p k = some (i, j)) : (groups.get? i).isSome := by
  have hmem := H.mem_iff.mpr h
  unfold slotAt at hmem
  cases hg : groups.get? i with
  | none => simp [hg] at hmem
  | some g => rfl

theorem enqueue (H : Placed p groups) {flow : Flow} (hk : p k = none)
    (hk' : p' k = some (flow.group, slotKey flow.s flow.group)) (hne : ∀ l, l ≠ k → p' l = p l) :
    Placed p' (enqueue groups k flow) where
  tight := H.tight.enqueue k flow
  count i j l := by
    rw [slotAt_enqueue, List.count_append, H.count]
    by_cases hl : l = k
    · subst hl
      rw [hk, hk']
      by_cases h : i = flow.group ∧ j = slotKey flow.s flow.group
      · obtain ⟨rfl, rfl⟩ := h
        simp
      · have h' : ¬some (flow.group, slotKey flow.s flow.group) = some (i, j) := by
          simpa [eq_comm] using h
        simp [h, h']
    · rw [hne l hl]
      by_cases h : i = flow.group ∧ j = slotKey flow.s flow.group
      · simp [h, Ne.symm hl]
      · simp [h]

theorem moveSlot (H : Placed p groups) {idx key : Nat} {o : Option Nat}
    (hk : p k = some (idx, key)) (hk' : p' k = o.map (idx, ·)) (hne : ∀ l, l ≠ k → p' l = p l) :
    Placed p' (groups.alter idx (moveSlot k key o)) where
  tight := H.tight.moveSlot k idx key o
  count i j l := by
    rw [slotAt_moveSlot (H.group_isSome hk), List.count_append]
    by_cases hl : l = k
    · subst hl
      rw [hk']
      have hgone : (if i = idx ∧ j = key then (slotAt groups i j).erase l
          else slotAt groups i j).count l = 0 := by
        split
        · rename_i h
          rw [List.count_erase_self, H.count, hk, h.1, h.2]
          simp
        · rename_i h
          rw [H.count, hk, if_neg]
          simpa [eq_comm] using h
      rw [hgone, Nat.zero_add]
      cases o with
      | none => simp
      | some key' =>
        by_cases h : i = idx ∧ key' = j
        · simp [h]
        · have h' : ¬(idx = i ∧ key' = j) := by simpa [eq_comm] using h
          simp [h, h']
    · rw [hne l hl]
      have hsame : (if i = idx ∧ j = key then (slotAt groups i j).erase k
          else slotAt groups i j).count l = (slotAt groups i j).count l := by
        split
        · rw [List.count_erase_of_ne hl]
        · rfl
      have hnone : (if i = idx ∧ o = some j then [k] else []).count l = 0 := by
        split
        · simp [Ne.symm hl]
        · rfl
      rw [hsame, hnone, H.count]
      rfl

theorem foldl_enqueue {l : List (K × Flow)} (H : Placed p groups) (hn : (l.map (·.1)).Nodup)
    (hnone : ∀ e ∈ l, p e.1 = none)
    (hmem : ∀ e ∈ l, p' e.1 = some (e.2.group, slotKey e.2.s e.2.group))
    (hne : ∀ k, k ∉ l.map (·.1) → p' k = p k) :
    Placed p' (l.foldl (fun groups e => Qfq.enqueue groups e.1 e.2) groups) := by
  induction l generalizing p groups with
  | nil =>
    have hp : p' = p := funext fun k => hne k (by simp)
    rw [hp]
    exact H
  | cons e l ih =>
    obtain ⟨hnot, hn⟩ := List.nodup_cons.mp hn
    have hother : ∀ e' ∈ l, e'.1 ≠ e.1 := fun e' he' heq =>
      hnot (List.mem_map.mpr ⟨e', he', heq⟩)
    have H₁ : Placed (Function.update p e.1 (p' e.1)) (Qfq.enqueue groups e.1 e.2) := by
      refine H.enqueue (hnone e (by simp)) ?_ fun l hl => Function.update_of_ne hl ..
      rw [Function.update_self]
      exact hmem e (by simp)
    refine ih H₁ hn (fun e' he' => ?_) (fun e' he' => hmem e' (by simp [he'])) fun k hk => ?_
    · rw [Function.update_of_ne (hother e' he')]
      exact hnone e' (by simp [he'])
    · by_cases hke : k = e.1
      · subst hke
        rw [Function.update_self]
      · rw [Function.update_of_ne hke]
        exact hne k (by simpa [hke] using hk)

/-- The first flow of the first slot of a group waits there. -/
theorem head (H : Placed p groups) {g : Group K} {slot : Nat × List K} (hg : groups.get? i = some g)
    (hs : g.entries.head? = some slot) (hk : slot.2.head? = some k) : p k = some (i, slot.1) := by
  refine H.mem_iff.mp ?_
  have hslot : OrdMap.get? g slot.1 = some slot.2 :=
    OrdMap.get?_eq_some.mpr (List.mem_of_mem_head? hs)
  simp only [slotAt, hg, Option.bind_some, hslot, Option.getD_some]
  exact List.mem_of_mem_head? hk

/-- A group that is there has a first flow. -/
theorem exists_head (H : Placed p groups) {g : Group K} (hg : groups.get? i = some g) :
    ∃ slot k, g.entries.head? = some slot ∧ slot.2.head? = some k := by
  obtain ⟨hne, T⟩ := H.tight i g hg
  cases hs : g.entries with
  | nil => simp [OrdMap.isEmpty, hs] at hne
  | cons slot rest =>
    have hslot : OrdMap.get? g slot.1 = some slot.2 :=
      OrdMap.get?_eq_some.mpr (by simp [hs])
    cases hk : slot.2 with
    | nil => exact absurd (hk ▸ hslot) (T slot.1)
    | cons k l => exact ⟨slot, k, rfl, by simp [hk]⟩

theorem isEmpty_iff (H : Placed p groups) : groups.isEmpty = true ↔ ∀ k, p k = none := by
  rw [OrdMap.isEmpty_iff]
  constructor
  · intro h k
    cases hk : p k with
    | none => rfl
    | some ij =>
      have hsome := H.group_isSome (i := ij.1) (j := ij.2) hk
      rw [h ij.1] at hsome
      cases hsome
  · intro h i
    cases hg : groups.get? i with
    | none => rfl
    | some g =>
      obtain ⟨slot, k, hs, hk⟩ := H.exists_head hg
      have := H.head hg hs hk
      rw [h k] at this
      cases this

end Placed

/-! ## Operations -/

/-- The slot a backlogged flow waits in. -/
def place (flow : Flow) : Option (Nat × Nat) :=
  if flow.backlogged then some (flow.group, slotKey flow.s flow.group) else none

def placeOf (q : Qfq K) (k : K) : Option (Nat × Nat) := (q.flows.lookup k).bind place

/-- Does the scheduler know this flow? -/
def contains (q : Qfq K) (k : K) : Bool := (q.flows.lookup k).isSome

/-- Is the flow currently backlogged? -/
def isActive (q : Qfq K) (k : K) : Bool := (q.flows.lookup k).any (·.backlogged)

def Wf (q : Qfq K) : Prop := Placed q.placeOf q.groups

section
variable {q : Qfq K} {k l : K}

theorem placeOf_isSome : (q.placeOf k).isSome = q.isActive k := by
  unfold placeOf isActive place
  cases q.flows.lookup k with
  | none => rfl
  | some flow => cases h : flow.backlogged <;> simp [h]

theorem placeOf_eq_none : q.placeOf k = none ↔ q.isActive k = false := by
  rw [← placeOf_isSome, Option.isSome_eq_false_iff, Option.isNone_iff_eq_none]

theorem contains_of_isActive (h : q.isActive k = true) : q.contains k = true := by
  unfold isActive at h
  unfold contains
  cases hl : q.flows.lookup k with
  | none => simp [hl] at h
  | some flow => rfl

theorem wf_new : Wf (new : Qfq K) := Placed.empty

theorem Wf.hasBacklog_iff (W : Wf q) : q.hasBacklog = true ↔ ∃ k, q.isActive k = true := by
  have := Placed.isEmpty_iff W
  simp only [placeOf_eq_none] at this
  rw [hasBacklog, Bool.not_eq_true', ← Bool.not_eq_true, this]
  simp

/-! ### maybe_rebase -/

@[simp] theorem contains_maybeRebase : q.maybeRebase.contains l = q.contains l := by
  unfold maybeRebase contains
  split
  · rfl
  · simp [Map.lookup_mapValues]

@[simp] theorem isActive_maybeRebase : q.maybeRebase.isActive l = q.isActive l := by
  unfold maybeRebase isActive
  split
  · rfl
  · rw [Map.lookup_mapValues, Option.any_map]
    refine congrArg (fun f => Option.any f _) (funext fun flow => ?_)
    exact Flow.shift_backlogged ..

theorem mem_activeByStart {flows : Map K Flow} {e : K × Flow} :
    e ∈ activeByStart flows ↔ flows.lookup e.1 = some e.2 ∧ e.2.backlogged = true := by
  rw [activeByStart, List.mem_insertionSort, List.mem_filter, List.mem_map]
  constructor
  · rintro ⟨⟨e', he', rfl⟩, hb⟩
    exact ⟨Map.lookup_of_mem he', hb⟩
  · rintro ⟨hl, hb⟩
    exact ⟨⟨⟨e.1, e.2⟩, AList.mem_lookup_iff.mp hl, rfl⟩, hb⟩

omit [DecidableEq K] in
theorem activeByStart_nodup (flows : Map K Flow) :
    ((activeByStart flows).map (·.1)).Nodup := by
  have hperm : ((activeByStart flows).map (·.1)).Perm
      ((((flows.entries.map fun e => (e.1, e.2)).filter fun e => e.2.backlogged)).map (·.1)) :=
    (List.perm_insertionSort ..).map _
  refine hperm.nodup_iff.mpr ?_
  have hkeys : ((flows.entries.map fun e => (e.1, e.2)).map (·.1)).Nodup := by
    rw [List.map_map]
    exact flows.nodupKeys
  exact hkeys.sublist (List.filter_sublist.map _)

theorem wf_maybeRebase (h : ∀ q' : Qfq K, q'.flows = q.flows → q'.groups = q.groups → Wf q') :
    Wf q.maybeRebase := by
  unfold maybeRebase
  split
  · exact h q rfl rfl
  · refine Placed.empty.foldl_enqueue (activeByStart_nodup _) (fun _ _ => rfl) (fun e he => ?_)
      fun k hk => ?_
    · obtain ⟨hl, hb⟩ := mem_activeByStart.mp he
      simp [placeOf, hl, place, hb]
    · refine placeOf_eq_none.mpr (Bool.eq_false_iff.mpr fun ha => hk ?_)
      obtain ⟨flow, hl, hb⟩ := Option.any_eq_true _ _ |>.mp ha
      exact List.mem_map.mpr ⟨(k, flow), mem_activeByStart.mpr ⟨hl, hb⟩, rfl⟩

/-! ### add_flow, activate, deactivate, remove_flow -/

@[simp] theorem contains_addFlow (weight lmax : Nat) :
    (q.addFlow k weight lmax).contains l = (decide (l = k) || q.contains l) := by
  unfold addFlow contains
  rw [Map.lookup_insert_ite]
  split <;> simp_all

theorem isActive_addFlow (weight lmax : Nat) (h : q.contains k = false) :
    (q.addFlow k weight lmax).isActive l = q.isActive l := by
  unfold addFlow isActive
  rw [Map.lookup_insert_ite]
  split
  · rename_i hl
    subst hl
    simp only [contains, Option.isSome_eq_false_iff, Option.isNone_iff_eq_none] at h
    simp [h]
  · rfl

theorem Wf.addFlow (W : Wf q) (weight lmax : Nat) (h : q.contains k = false) :
    Wf (q.addFlow k weight lmax) := by
  have hp : (q.addFlow k weight lmax).placeOf = q.placeOf := by
    funext l
    unfold placeOf Qfq.addFlow
    rw [Map.lookup_insert_ite]
    split
    · rename_i hl
      subst hl
      simp only [contains, Option.isSome_eq_false_iff, Option.isNone_iff_eq_none] at h
      simp [h, place]
    · rfl
  unfold Wf
  rw [hp]
  exact W

@[simp] theorem contains_activate (len : Nat) : (q.activate k len).contains l = q.contains l := by
  unfold activate
  split
  · rfl
  · rename_i flow hl
    split
    · rfl
    · rw [contains_maybeRebase, contains, Map.lookup_insert_ite]
      split
      · rename_i h
        subst h
        simp [contains, hl]
      · rfl

theorem isActive_activate (len : Nat) :
    (q.activate k len).isActive l = (q.isActive l || decide (l = k) && q.contains k) := by
  unfold activate
  split
  · rename_i hl
    simp [contains, hl]
  · rename_i flow hl
    have hc : q.contains k = true := by simp [contains, hl]
    split
    · rename_i hb
      by_cases h : l = k
      · subst h
        simp [isActive, hl, hb]
      · simp [h]
    · rw [isActive_maybeRebase, isActive, Map.lookup_insert_ite, hc]
      split
      · rename_i h
        simp [h]
      · rename_i h
        simp [h, isActive]

theorem Wf.activate (W : Wf q) (k : K) (len : Nat) : Wf (q.activate k len) := by
  unfold Qfq.activate
  split
  · exact W
  · rename_i flow hl
    split
    · exact W
    · rename_i hb
      refine wf_maybeRebase fun q' hf hg => ?_
      unfold Wf
      rw [hg]
      refine Placed.enqueue (p := q.placeOf) W ?_ ?_ fun l hne => ?_
      · simp [placeOf, hl, place, hb]
      · simp [placeOf, hf, place]
      · simp only [placeOf, hf, Map.lookup_insert_ite, if_neg hne]

@[simp] theorem contains_deactivate : (q.deactivate k).contains l = q.contains l := by
  unfold deactivate
  split
  · rfl
  · rename_i flow hl
    split
    · rfl
    · rw [contains, Map.lookup_insert_ite]
      split
      · rename_i h
        subst h
        simp [contains, hl]
      · rfl

@[simp] theorem isActive_deactivate :
    (q.deactivate k).isActive l = (q.isActive l && !decide (l = k)) := by
  unfold deactivate
  split
  · rename_i hl
    by_cases h : l = k
    · subst h
      simp [isActive, hl]
    · simp [h]
  · rename_i flow hl
    split
    · rename_i hb
      by_cases h : l = k
      · subst h
        simpa [isActive, hl] using hb
      · simp [h]
    · rw [isActive, Map.lookup_insert_ite]
      split
      · rename_i h
        simp [h]
      · rename_i h
        simp [h, isActive]

theorem Wf.deactivate (W : Wf q) (k : K) : Wf (q.deactivate k) := by
  unfold Qfq.deactivate
  split
  · exact W
  · rename_i flow hl
    split
    · exact W
    · rename_i hb
      have hb : flow.backlogged = true := by simpa using hb
      refine Placed.moveSlot (p := q.placeOf) (o := none) W ?_ ?_ fun l hne => ?_
      · simp [placeOf, hl, place, hb]
      · simp [placeOf, place]
      · simp only [placeOf, Map.lookup_insert_ite, if_neg hne]

@[simp] theorem contains_removeFlow :
    (q.removeFlow k).contains l = (q.contains l && !decide (l = k)) := by
  rw [← contains_deactivate (q := q) (k := k)]
  unfold removeFlow
  dsimp only
  split
  · rename_i hl
    by_cases h : l = k
    · subst h
      simp [contains, hl]
    · simp [h]
  · rw [contains, Map.lookup_erase_ite]
    split
    · rename_i h
      simp [h]
    · rename_i h
      simp [h, contains]

@[simp] theorem isActive_removeFlow :
    (q.removeFlow k).isActive l = (q.isActive l && !decide (l = k)) := by
  rw [← isActive_deactivate]
  unfold removeFlow
  dsimp only
  split
  · rfl
  · rw [isActive, Map.lookup_erase_ite]
    split
    · rename_i h
      subst h
      simp
    · rfl

theorem Wf.removeFlow (W : Wf q) (k : K) : Wf (q.removeFlow k) := by
  have W₁ := W.deactivate k
  have hp : (q.removeFlow k).placeOf = (q.deactivate k).placeOf := by
    funext l
    by_cases h : l = k
    · subst h
      rw [placeOf_eq_none.mpr, placeOf_eq_none.mpr] <;> simp
    · unfold placeOf Qfq.removeFlow
      dsimp only
      split
      · rfl
      · rw [Map.lookup_erase_ite, if_neg h]
  have hg : (q.removeFlow k).groups = (q.deactivate k).groups := by
    unfold Qfq.removeFlow
    dsimp only
    split <;> rfl
  unfold Wf
  rw [hp, hg]
  exact W₁

/-! ### served -/

@[simp] theorem contains_served (len : Nat) (next : Option Nat) :
    (q.served k len next).contains l = q.contains l := by
  unfold served
  split
  · rfl
  · rename_i flow hl
    split
    · rfl
    · dsimp only
      rw [contains_maybeRebase, contains, Map.lookup_insert_ite]
      split
      · rename_i h
        subst h
        simp [contains, hl]
      · rfl

theorem isActive_served (len : Nat) (next : Option Nat) :
    (q.served k len next).isActive l = (q.isActive l && (!decide (l = k) || next.isSome)) := by
  unfold served
  split
  · rename_i hl
    by_cases h : l = k
    · subst h
      simp [isActive, hl]
    · simp [h]
  · rename_i flow hl
    split
    · rename_i hb
      by_cases h : l = k
      · subst h
        have hb : flow.backlogged = false := by simpa using hb
        simp [isActive, hl, hb]
      · simp [h]
    · rename_i hb
      have hb : flow.backlogged = true := by simpa using hb
      dsimp only
      rw [isActive_maybeRebase, isActive, Map.lookup_insert_ite]
      split
      · rename_i h
        subst h
        cases next <;> simp [isActive, hl, hb]
      · rename_i h
        simp [h, isActive]

theorem Wf.served (W : Wf q) (k : K) (len : Nat) (next : Option Nat) :
    Wf (q.served k len next) := by
  unfold Qfq.served
  split
  · exact W
  · rename_i flow hl
    split
    · exact W
    · rename_i hb
      have hb : flow.backlogged = true := by simpa using hb
      dsimp only
      refine wf_maybeRebase fun q' hf hg => ?_
      unfold Wf
      rw [hg]
      refine Placed.moveSlot (p := q.placeOf) W ?_ ?_ fun l hne => ?_
      · simp [placeOf, hl, place, hb]
      · cases next <;> simp [placeOf, hf, place, hb]
      · simp only [placeOf, hf, Map.lookup_insert_ite, if_neg hne]

/-! ### peek -/

@[simp] theorem contains_peek : q.peek.1.contains l = q.contains l := by
  simp [contains, peek_flows]

@[simp] theorem isActive_peek : q.peek.1.isActive l = q.isActive l := by
  simp [isActive, peek_flows]

theorem Wf.peek (W : Wf q) : Wf q.peek.1 := by
  have hp : q.peek.1.placeOf = q.placeOf := by
    funext l
    simp [placeOf, peek_flows]
  unfold Wf
  rw [hp, peek_groups]
  exact W

omit [DecidableEq K] in
/-- The walk picks a group once it meets one that is eligible: the first such finish time is below
the initial bound, and a later group replaces the pick or leaves it. -/
theorem pickStep_isSome {v : Nat} {es : List (Nat × Group K)} {acc : Nat × Option Nat}
    (hacc : acc.2.isSome ∨ acc.1 = u64Max ∧ ∃ e ∈ es, ∃ s, Group.start e.2 = some s ∧ s ≤ v) :
    (es.foldl (pickStep v) acc).2.isSome := by
  induction es generalizing acc with
  | nil =>
    rcases hacc with h | ⟨_, e, he, _⟩
    · exact h
    · cases he
  | cons e es ih =>
    refine ih ?_
    unfold pickStep
    split
    · rename_i s f hs hf
      by_cases hv : v < s
      · rw [if_pos hv]
        rcases hacc with h | ⟨hmax, e', he', s', hs', hle⟩
        · exact .inl h
        · rcases List.mem_cons.mp he' with rfl | he'
          · rw [hs, Option.some.injEq] at hs'
            omega
          · exact .inr ⟨hmax, e', he', s', hs', hle⟩
      · rw [if_neg hv]
        split
        · exact .inl rfl
        · rename_i hf'
          rcases hacc with h | ⟨hmax, _⟩
          · exact .inl h
          · rw [Group.finish, hs, Option.map_some, Option.some.injEq] at hf
            have : f < 2 ^ 64 := hf ▸ Nat.mod_lt _ (by decide)
            rw [hmax, u64Max] at hf'
            omega
    · rename_i hnone
      rcases hacc with h | ⟨hmax, e', he', s', hs', hle⟩
      · exact .inl h
      · rcases List.mem_cons.mp he' with rfl | he'
        · exact absurd (by rw [Group.finish, hs', Option.map_some]) (hnone s' _ hs')
        · exact .inr ⟨hmax, e', he', s', hs', hle⟩

omit [DecidableEq K] in
/-- After the jump some group has started. -/
theorem exists_start_le_jumpV {e : Nat × Group K} {s : Nat} (he : e ∈ q.groups.entries)
    (hs : Group.start e.2 = some s) :
    ∃ e ∈ q.groups.entries, ∃ s, Group.start e.2 = some s ∧ s ≤ q.jumpV := by
  unfold jumpV
  dsimp only
  split
  · rename_i hany
    obtain ⟨s', hs', hle⟩ := List.any_eq_true.mp hany
    obtain ⟨e', he', hst⟩ := List.mem_filterMap.mp hs'
    exact ⟨e', he', s', hst, by simpa using hle⟩
  · split
    · rename_i m hm
      obtain ⟨e', he', hst⟩ := List.mem_filterMap.mp (List.min?_mem hm)
      exact ⟨e', he', m, hst, Nat.le_max_right ..⟩
    · rename_i hm
      rw [List.min?_eq_none_iff] at hm
      have : s ∈ q.groups.entries.filterMap fun e => Group.start e.2 :=
        List.mem_filterMap.mpr ⟨e, he, hs⟩
      rw [hm] at this
      cases this

theorem Wf.pickGroup_isSome (W : Wf q) (h : q.hasBacklog = true) : q.pickGroup.2.isSome := by
  have hne : ¬q.groups.isEmpty = true := by simpa [hasBacklog] using h
  unfold pickGroup
  rw [if_neg hne]
  refine pickStep_isSome (.inr ⟨rfl, ?_⟩)
  have hex : ∃ e ∈ q.groups.entries, ∃ s, Group.start e.2 = some s := by
    cases hes : q.groups.entries with
    | nil => simp [OrdMap.isEmpty, hes] at hne
    | cons e rest =>
      have hg : q.groups.get? e.1 = some e.2 := OrdMap.get?_eq_some.mpr (by simp [hes])
      obtain ⟨slot, k, hs, _⟩ := Placed.exists_head W hg
      exact ⟨e, by simp, slot.1, by simp [Group.start, hs]⟩
  obtain ⟨e, he, s, hs⟩ := hex
  obtain ⟨e, he, s, hs, hle⟩ := exists_start_le_jumpV he hs
  exact ⟨e, List.mem_reverse.mpr he, s, hs, hle⟩

omit [DecidableEq K] in
/-- A group that the walk picks is there. -/
theorem pickStep_mem {v i : Nat} {es : List (Nat × Group K)} {acc : Nat × Option Nat}
    (h : (es.foldl (pickStep v) acc).2 = some i) : acc.2 = some i ∨ ∃ g, (i, g) ∈ es := by
  induction es generalizing acc with
  | nil => exact .inl h
  | cons e es ih =>
    rcases ih h with h | ⟨g, hg⟩
    · unfold pickStep at h
      split at h
      · split at h
        · exact .inl h
        · split at h
          · obtain rfl := Option.some.inj h
            exact .inr ⟨e.2, by simp⟩
          · exact .inl h
      · exact .inl h
    · exact .inr ⟨g, by simp [hg]⟩

theorem Wf.isActive_of_peek (W : Wf q) (h : q.peek.2 = some k) : q.isActive k = true := by
  have W₁ : Placed q.placeOf q.groups := W
  have hg₁ : q.pickGroup.1.groups = q.groups := by
    unfold pickGroup
    split <;> rfl
  unfold Qfq.peek at h
  simp only [Option.bind_eq_some_iff, hg₁] at h
  obtain ⟨idx, _, g, hg, slot, hs, hk⟩ := h
  rw [← placeOf_isSome, W₁.head hg hs hk]
  rfl

theorem Wf.peek_isSome (W : Wf q) : q.peek.2.isSome = q.hasBacklog := by
  cases hb : q.hasBacklog with
  | false =>
    have hempty : q.groups.isEmpty = true := by simpa [hasBacklog] using hb
    simp [Qfq.peek, pickGroup, hempty]
  | true =>
    obtain ⟨idx, hidx⟩ := Option.isSome_iff_exists.mp (W.pickGroup_isSome hb)
    have hne : ¬q.groups.isEmpty = true := by simpa [hasBacklog] using hb
    obtain ⟨g, hg⟩ : ∃ g, (idx, g) ∈ q.groups.entries := by
      have hidx' := hidx
      unfold pickGroup at hidx'
      rw [if_neg hne] at hidx'
      rcases pickStep_mem hidx' with h | ⟨g, hg⟩
      · cases h
      · exact ⟨g, List.mem_reverse.mp hg⟩
    obtain ⟨slot, k, hs, hk⟩ := Placed.exists_head W (OrdMap.get?_eq_some.mpr hg)
    have hget : q.pickGroup.1.groups.get? idx = some g := by
      unfold pickGroup
      rw [if_neg hne]
      exact OrdMap.get?_eq_some.mpr hg
    simp [Qfq.peek, hidx, hget, hs, hk]

theorem Wf.nextHeadLen_isSome (W : Wf q) : q.nextHeadLen.2.isSome = q.hasBacklog := by
  rw [← W.peek_isSome]
  unfold nextHeadLen
  cases h : q.peek.2 with
  | none => simp [h]
  | some k =>
    have hc := contains_of_isActive (W.isActive_of_peek h)
    obtain ⟨flow, hf⟩ := Option.isSome_iff_exists.mp hc
    simp [h, peek_flows, hf]

omit [DecidableEq K] in
theorem hasBacklog_peek : q.peek.1.hasBacklog = q.hasBacklog := by
  simp [hasBacklog, peek_groups]

end

end Qfq

/-! ## The tree -/

namespace SchedTree
variable {t : SchedTree} {id i : StreamId} {cls c : Class}

/-- A data class is backlogged at the top exactly when a stream of it is. -/
structure Wf (t : SchedTree) : Prop where
  top : t.top.Wf
  inner : ∀ c, (t.inner c).Wf
  classes : ∀ c, t.top.contains c = true
  data : ∀ c, c ≠ .control → t.top.isActive c = (t.inner c).hasBacklog

/-- The control class is backlogged at the top exactly when a control frame is queued. -/
def ControlWf (t : SchedTree) : Prop := t.top.isActive .control = !t.control.isEmpty

theorem inner_setInner (q : Qfq StreamId) :
    (t.setInner cls q).inner c = if c = cls then q else t.inner c := rfl

@[simp] theorem top_setInner (q : Qfq StreamId) : (t.setInner cls q).top = t.top := rfl

theorem wf_new (weights : Weights) (maxFrame : Nat) : Wf (new weights maxFrame) where
  top := by
    have hnew : ∀ c : Class, (Qfq.new : Qfq Class).contains c = false := fun _ => rfl
    refine (((Qfq.wf_new.addFlow _ _ ?_).addFlow _ _ ?_).addFlow _ _ ?_).addFlow _ _ ?_ <;>
      simp [hnew]
  inner _ := Qfq.wf_new
  classes c := by cases c <;> simp [new]
  data c _ := by cases c <;> rfl

theorem controlWf_new (weights : Weights) (maxFrame : Nat) : ControlWf (new weights maxFrame) := rfl

/-! ### Control frames -/

theorem Wf.pushControl (W : Wf t) (f : Frame) : Wf (t.pushControl f) where
  top := W.top.activate _ _
  inner := W.inner
  classes c := by simp [SchedTree.pushControl, W.classes]
  data c hc := by
    simp only [SchedTree.pushControl, Qfq.isActive_activate, hc, decide_false, Bool.false_and,
      Bool.or_false]
    exact W.data c hc

theorem Wf.controlWf_pushControl (W : Wf t) (f : Frame) : ControlWf (t.pushControl f) := by
  simp [ControlWf, SchedTree.pushControl, Qfq.isActive_activate, W.classes]

theorem Wf.clearControl (W : Wf t) : Wf t.clearControl where
  top := W.top.deactivate _
  inner := W.inner
  classes c := by simp [SchedTree.clearControl, W.classes]
  data c hc := by simpa [SchedTree.clearControl, hc] using W.data c hc

theorem controlWf_clearControl : ControlWf t.clearControl := by
  simp [ControlWf, clearControl]

theorem Wf.setControl (W : Wf t) (control : List Frame) : Wf { t with control } :=
  ⟨W.top, W.inner, W.classes, W.data⟩

/-- The front control frame left: what is behind it decides whether control stays backlogged. -/
theorem Wf.servedControl (W : Wf t) (cls : Class) (len : Nat) (next : Option Nat) :
    Wf (t.served .control cls len next) where
  top := W.top.served _ _ _
  inner := W.inner
  classes c := by simp [SchedTree.served, W.classes]
  data c hc := by simpa [SchedTree.served, Qfq.isActive_served, hc] using W.data c hc

theorem controlWf_servedControl (cls : Class) (len : Nat) (next : Option Nat)
    (h : t.top.isActive .control = true) : ControlWf (t.served .control cls len next) := by
  simp only [ControlWf, served, Qfq.isActive_served, h]
  cases t.control <;> simp

/-! ### Streams -/

/-- One inner scheduler changes and the top follows. -/
theorem Wf.update (W : Wf t) {q : Qfq StreamId} {u : Qfq Class} (hq : q.Wf) (ht : u.Wf)
    (hcls : ∀ c, u.contains c = t.top.contains c)
    (hne : ∀ c, c ≠ cls → u.isActive c = t.top.isActive c)
    (hself : cls ≠ .control → u.isActive cls = q.hasBacklog) :
    Wf { t.setInner cls q with top := u } where
  top := ht
  inner c := by
    rw [inner_setInner]
    split
    · exact hq
    · exact W.inner c
  classes c := (hcls c).trans (W.classes c)
  data c hc := by
    change u.isActive c = ((t.setInner cls q).inner c).hasBacklog
    rw [inner_setInner]
    split
    · rename_i h
      subst h
      exact hself hc
    · rename_i h
      rw [hne c h]
      exact W.data c hc

theorem Wf.addStream (W : Wf t) (hc : (t.inner cls).contains id = false) :
    Wf (t.addStream id cls) := by
  refine W.update (u := t.top) ((W.inner cls).addFlow _ _ hc) W.top (fun _ => rfl)
    (fun _ _ => rfl) fun h => ?_
  exact W.data cls h

theorem Wf.removeStream (W : Wf t) (id : StreamId) (cls : Class) : Wf (t.removeStream id cls) := by
  have Wq := (W.inner cls).removeFlow id
  unfold SchedTree.removeStream
  dsimp only
  split
  · rename_i hb
    refine W.update (u := t.top) Wq W.top (fun _ => rfl) (fun _ _ => rfl) fun h => ?_
    rw [W.data cls h, hb]
    obtain ⟨k, hk⟩ := Wq.hasBacklog_iff.mp hb
    rw [Qfq.isActive_removeFlow, Bool.and_eq_true] at hk
    exact (W.inner cls).hasBacklog_iff.mpr ⟨k, hk.1⟩
  · rename_i hb
    refine W.update Wq (W.top.deactivate cls) (fun _ => Qfq.contains_deactivate)
      (fun c hne => by simp [hne]) fun h => ?_
    rw [Bool.eq_false_iff.mpr hb]
    simp

theorem Wf.activateStream (W : Wf t) (hc : (t.inner cls).contains id = true) (len : Nat) :
    Wf (t.activateStream id cls len) := by
  have Wq := (W.inner cls).activate id len
  have hb : ((t.inner cls).activate id len).hasBacklog = true :=
    Wq.hasBacklog_iff.mpr ⟨id, by simp [Qfq.isActive_activate, hc]⟩
  unfold SchedTree.activateStream
  dsimp only
  split
  · refine W.update Wq.peek (W.top.activate _ _) (fun _ => Qfq.contains_activate _)
      (fun c hne => by simp [Qfq.isActive_activate, hne]) fun _ => ?_
    change _ = ((t.inner cls).activate id len).peek.1.hasBacklog
    rw [Qfq.hasBacklog_peek, hb, Qfq.isActive_activate, top_setInner, W.classes]
    simp
  · rename_i hidle
    refine W.update (u := t.top) Wq W.top (fun _ => rfl) (fun _ _ => rfl) fun h => ?_
    rw [W.data cls h, hb]
    simpa using hidle

theorem Wf.reclass (W : Wf t) {src dst : Class} (hc : (t.inner dst).contains id = false)
    (len : Option Nat) : Wf (t.reclass id src dst len) := by
  unfold SchedTree.reclass
  split
  · exact W
  · rename_i hne
    have hc₁ : ((t.removeStream id src).inner dst).contains id = false := by
      have : (t.removeStream id src).inner dst = t.inner dst := by
        unfold SchedTree.removeStream
        dsimp only
        split <;> simp [inner_setInner, Ne.symm hne]
      rw [this, hc]
    have W₁ := (W.removeStream id src).addStream hc₁
    cases len with
    | none => exact W₁
    | some len =>
      refine W₁.activateStream ?_ len
      simp [SchedTree.addStream, inner_setInner]

theorem Wf.servedStream (W : Wf t) (id : StreamId) (cls : Class) (len : Nat) (next : Option Nat) :
    Wf (t.served (.stream id) cls len next) := by
  have Wq := (W.inner cls).served id len next
  refine W.update Wq.peek (W.top.served _ _ _) (fun _ => Qfq.contains_served _ _)
    (fun c hne => by simp [Qfq.isActive_served, hne]) fun h => ?_
  rw [Qfq.isActive_served, top_setInner, W.data cls h, Wq.nextHeadLen_isSome]
  change _ = ((t.inner cls).served id len next).peek.1.hasBacklog
  rw [Qfq.hasBacklog_peek]
  cases hb : ((t.inner cls).served id len next).hasBacklog with
  | false => simp
  | true =>
    obtain ⟨k, hk⟩ := Wq.hasBacklog_iff.mp hb
    rw [Qfq.isActive_served, Bool.and_eq_true] at hk
    rw [(W.inner cls).hasBacklog_iff.mpr ⟨k, hk.1⟩]
    simp

theorem Wf.pick (W : Wf t) : Wf t.pick.1 := by
  have W₁ : Wf { t with top := t.top.peek.1 } :=
    ⟨W.top.peek, W.inner, fun c => by simpa using W.classes c, fun c hc => by simpa using W.data c hc⟩
  unfold SchedTree.pick
  dsimp only
  split
  · exact W₁
  · exact W₁
  · rename_i cls _ _
    refine W₁.update (u := t.top.peek.1) (W.inner cls).peek W.top.peek (fun _ => rfl)
      (fun _ _ => rfl) fun h => ?_
    rw [Qfq.isActive_peek, Qfq.hasBacklog_peek, W.data cls h]

/-! ### Which streams the classes hold -/

theorem inner_removeStream :
    (t.removeStream id cls).inner c = if c = cls then (t.inner cls).removeFlow id else t.inner c := by
  unfold removeStream
  dsimp only
  split <;> rfl

@[simp] theorem contains_addStream : ((t.addStream id cls).inner c).contains i =
    (decide (c = cls ∧ i = id) || (t.inner c).contains i) := by
  rw [addStream, inner_setInner]
  split
  · rename_i h
    subst h
    simp
  · rename_i h
    simp [h]

theorem isActive_addStream (hc : (t.inner cls).contains id = false) :
    ((t.addStream id cls).inner c).isActive i = (t.inner c).isActive i := by
  rw [addStream, inner_setInner]
  split
  · rename_i h
    subst h
    exact Qfq.isActive_addFlow _ _ hc
  · rfl

@[simp] theorem contains_removeStream : ((t.removeStream id cls).inner c).contains i =
    ((t.inner c).contains i && !decide (c = cls ∧ i = id)) := by
  rw [inner_removeStream]
  split
  · rename_i h
    subst h
    simp
  · rename_i h
    simp [h]

@[simp] theorem isActive_removeStream : ((t.removeStream id cls).inner c).isActive i =
    ((t.inner c).isActive i && !decide (c = cls ∧ i = id)) := by
  rw [inner_removeStream]
  split
  · rename_i h
    subst h
    simp
  · rename_i h
    simp [h]

@[simp] theorem contains_activateStream (len : Nat) :
    ((t.activateStream id cls len).inner c).contains i = (t.inner c).contains i := by
  unfold activateStream
  dsimp only
  split
  · simp only [inner_setInner, Qfq.nextHeadLen]
    split
    · rename_i h
      subst h
      simp
    · rfl
  · rw [inner_setInner]
    split
    · rename_i h
      subst h
      simp
    · rfl

@[simp] theorem isActive_activateStream (len : Nat) :
    ((t.activateStream id cls len).inner c).isActive i = ((t.inner c).isActive i ||
      decide (c = cls ∧ i = id) && (t.inner cls).contains id) := by
  have hself : ((t.inner cls).activate id len).isActive i = ((t.inner cls).isActive i ||
      decide (i = id) && (t.inner cls).contains id) := Qfq.isActive_activate len
  unfold activateStream
  dsimp only
  split
  · simp only [inner_setInner, Qfq.nextHeadLen]
    split
    · rename_i h
      subst h
      simp [hself]
    · rename_i h
      simp [h]
  · rw [inner_setInner]
    split
    · rename_i h
      subst h
      simp [hself]
    · rename_i h
      simp [h]

theorem contains_reclass {src dst : Class} (h : src ≠ dst) (len : Option Nat) :
    ((t.reclass id src dst len).inner c).contains i = (decide (c = dst ∧ i = id) ||
      (t.inner c).contains i && !decide (c = src ∧ i = id)) := by
  unfold reclass
  rw [if_neg h]
  cases len <;> simp

theorem isActive_reclass {src dst : Class} (h : src ≠ dst)
    (hc : (t.inner dst).contains id = false) (len : Option Nat) :
    ((t.reclass id src dst len).inner c).isActive i =
      ((t.inner c).isActive i && !decide (c = src ∧ i = id) ||
        decide (c = dst ∧ i = id) && len.isSome) := by
  have hc₁ : ((t.removeStream id src).inner dst).contains id = false := by simp [hc]
  unfold reclass
  rw [if_neg h]
  cases len with
  | none => simp [isActive_addStream hc₁]
  | some len => simp [isActive_addStream hc₁]

@[simp] theorem contains_servedStream (len : Nat) (next : Option Nat) :
    ((t.served (.stream id) cls len next).inner c).contains i = (t.inner c).contains i := by
  simp only [served, inner_setInner, Qfq.nextHeadLen]
  split
  · rename_i h
    subst h
    simp
  · rfl

@[simp] theorem isActive_servedStream (len : Nat) (next : Option Nat) :
    ((t.served (.stream id) cls len next).inner c).isActive i = ((t.inner c).isActive i &&
      (!decide (c = cls ∧ i = id) || next.isSome)) := by
  simp only [served, inner_setInner, Qfq.nextHeadLen]
  split
  · rename_i h
    subst h
    simp [Qfq.isActive_served]
  · rename_i h
    simp [h]

theorem inner_pick : t.pick.1.inner c = t.inner c ∨ t.pick.1.inner c = (t.inner c).peek.1 := by
  unfold pick
  dsimp only
  split
  · exact .inl rfl
  · exact .inl rfl
  · rw [inner_setInner]
    split
    · rename_i h
      subst h
      exact .inr rfl
    · exact .inl rfl

@[simp] theorem contains_pick : (t.pick.1.inner c).contains i = (t.inner c).contains i := by
  rcases inner_pick (t := t) (c := c) with h | h <;> simp [h]

@[simp] theorem isActive_pick : (t.pick.1.inner c).isActive i = (t.inner c).isActive i := by
  rcases inner_pick (t := t) (c := c) with h | h <;> simp [h]

/-! ### The control class under stream operations -/

theorem isActive_control_removeStream (hcls : cls ≠ .control) :
    (t.removeStream id cls).top.isActive .control = t.top.isActive .control := by
  unfold removeStream
  dsimp only
  split <;> simp [Ne.symm hcls]

theorem isActive_control_activateStream (hcls : cls ≠ .control) (len : Nat) :
    (t.activateStream id cls len).top.isActive .control = t.top.isActive .control := by
  unfold activateStream
  dsimp only
  split <;> simp [Qfq.isActive_activate, Ne.symm hcls]

theorem isActive_control_reclass {src dst : Class} (hs : src ≠ .control) (hd : dst ≠ .control)
    (len : Option Nat) :
    (t.reclass id src dst len).top.isActive .control = t.top.isActive .control := by
  unfold reclass
  split
  · rfl
  · cases len with
    | none => exact isActive_control_removeStream hs
    | some len =>
      exact (isActive_control_activateStream hd len).trans (isActive_control_removeStream hs)

theorem isActive_control_servedStream (hcls : cls ≠ .control) (len : Nat) (next : Option Nat) :
    (t.served (.stream id) cls len next).top.isActive .control = t.top.isActive .control := by
  simp [served, Qfq.isActive_served, Ne.symm hcls]

@[simp] theorem top_pick : t.pick.1.top = t.top.peek.1 := by
  unfold pick
  dsimp only
  split <;> rfl

/-! ### What is picked -/

theorem Wf.pick_control (W : Wf t) (h : t.pick.2 = some .control) :
    t.top.isActive .control = true := by
  unfold SchedTree.pick at h
  dsimp only at h
  split at h
  · cases h
  · rename_i hp
    exact W.top.isActive_of_peek hp
  · obtain ⟨id, _, h⟩ := Option.map_eq_some_iff.mp h
    cases h

theorem Wf.pick_stream (W : Wf t) (h : t.pick.2 = some (.stream id)) :
    ∃ cls, cls ≠ .control ∧ (t.inner cls).isActive id = true := by
  unfold SchedTree.pick at h
  dsimp only at h
  split at h
  · cases h
  · cases h
  · rename_i cls hne _
    obtain ⟨id', hid, heq⟩ := Option.map_eq_some_iff.mp h
    cases heq
    exact ⟨cls, hne, (W.inner cls).isActive_of_peek hid⟩

/-- A pick finds something exactly when some class is backlogged. -/
theorem Wf.pick_isSome (W : Wf t) : t.pick.2.isSome = t.hasBacklog := by
  have htop := W.top.peek_isSome
  unfold SchedTree.pick
  dsimp only
  split
  · rename_i h
    rw [h] at htop
    exact htop
  · rename_i h
    rw [h] at htop
    exact htop
  · rename_i cls hne h
    rw [h] at htop
    rw [Option.isSome_map, hasBacklog, ← htop]
    have hact := W.top.isActive_of_peek h
    rw [W.data cls hne] at hact
    change (t.inner cls).peek.2.isSome = true
    rw [(W.inner cls).peek_isSome, hact]

theorem Wf.hasBacklog_iff (W : Wf t) (C : ControlWf t) : t.hasBacklog = true ↔
    t.control ≠ [] ∨ ∃ cls id, cls ≠ Class.control ∧ (t.inner cls).isActive id = true := by
  rw [hasBacklog, W.top.hasBacklog_iff]
  constructor
  · rintro ⟨cls, h⟩
    by_cases hcls : cls = .control
    · subst hcls
      rw [C] at h
      exact .inl (by simpa using h)
    · rw [W.data cls hcls] at h
      obtain ⟨id, hid⟩ := (W.inner cls).hasBacklog_iff.mp h
      exact .inr ⟨cls, id, hcls, hid⟩
  · rintro (h | ⟨cls, id, hcls, hid⟩)
    · refine ⟨.control, ?_⟩
      rw [C]
      simpa using h
    · refine ⟨cls, ?_⟩
      rw [W.data cls hcls]
      exact (W.inner cls).hasBacklog_iff.mpr ⟨id, hid⟩

end SchedTree

end TunnelWeaver.Mux
