import Mathlib

/-! Finite maps with arbitrary keys (association lists without duplicate keys, `AList`), and
ordered maps with natural number keys. The order of the entries of a `Map` is the iteration
order of the hash table it stands for; no operation below depends on it. -/

namespace TunnelWeaver

/-- A finite map from `K` to `V`. -/
abbrev Map (K V : Type) := AList (fun _ : K => V)

namespace Map
variable {K V : Type} [DecidableEq K]

theorem lookup_insert_ite (m : Map K V) (a b : K) (v : V) :
    (m.insert a v).lookup b = if b = a then some v else m.lookup b := by
  by_cases h : b = a
  · subst h; simp
  · rw [AList.lookup_insert_ne h, if_neg h]

theorem lookup_erase_ite (m : Map K V) (a b : K) :
    (m.erase a).lookup b = if b = a then none else m.lookup b := by
  by_cases h : b = a
  · subst h; simp
  · rw [AList.lookup_erase_ne h, if_neg h]

theorem erase_of_lookup_none {m : Map K V} {a : K} (h : m.lookup a = none) : m.erase a = m := by
  refine AList.ext (List.kerase_of_notMem_keys fun hk => ?_)
  rw [AList.lookup_eq_none] at h
  exact h (AList.mem_keys.mpr hk)

/-- Apply `f` to every value. -/
def mapValues (f : V → V) (m : Map K V) : Map K V where
  entries := m.entries.map fun e => ⟨e.1, f e.2⟩
  nodupKeys := by
    have h := m.nodupKeys
    rw [List.NodupKeys, List.keys] at h ⊢
    rwa [List.map_map]

theorem dlookup_mapValues (f : V → V) (l : List (Sigma fun _ : K => V)) (a : K) :
    (l.map fun e => (⟨e.1, f e.2⟩ : Sigma fun _ : K => V)).dlookup a = (l.dlookup a).map f := by
  induction l with
  | nil => rfl
  | cons e l ih =>
    obtain ⟨b, v⟩ := e
    by_cases h : a = b
    · subst h; simp
    · have hne (w : V) (l : List (Sigma fun _ : K => V)) :
          List.dlookup a (⟨b, w⟩ :: l) = List.dlookup a l :=
        List.dlookup_cons_ne l (⟨b, w⟩ : Sigma fun _ : K => V) h
      rw [List.map_cons, hne, hne, ih]

theorem lookup_mapValues (f : V → V) (m : Map K V) (a : K) :
    (m.mapValues f).lookup a = (m.lookup a).map f :=
  dlookup_mapValues f m.entries a

/-- An entry of the table is what `lookup` finds under its key. -/
theorem lookup_of_mem {m : Map K V} {k : K} {v : V} (h : ⟨k, v⟩ ∈ m.entries) :
    m.lookup k = some v :=
  AList.mem_lookup_iff.mpr h

/-- The entries `f` keeps, with the values it gives them. -/
def filterMap {W : Type} (f : K → V → Option W) (m : Map K V) : Map K W where
  entries := m.entries.filterMap fun e => (f e.1 e.2).map (⟨e.1, ·⟩)
  nodupKeys := by
    have h := m.nodupKeys
    rw [List.NodupKeys, List.keys, List.Nodup, List.pairwise_map] at h ⊢
    refine h.filterMap _ fun a b hab a' ha' b' hb' => ?_
    simp only [Option.map_eq_some_iff] at ha' hb'
    obtain ⟨_, _, rfl⟩ := ha'
    obtain ⟨_, _, rfl⟩ := hb'
    exact hab

theorem lookup_filterMap {W : Type} (f : K → V → Option W) (m : Map K V) (k : K) :
    (m.filterMap f).lookup k = (m.lookup k).bind (f k) := by
  refine Option.ext fun w => ?_
  rw [Option.bind_eq_some_iff]
  change w ∈ (m.filterMap f).lookup k ↔ _
  simp only [AList.mem_lookup_iff, filterMap, List.mem_filterMap, Option.map_eq_some_iff]
  constructor
  · rintro ⟨e, he, v, hv, hk⟩
    obtain rfl : e.1 = k := congrArg Sigma.fst hk
    cases hk
    exact ⟨e.2, lookup_of_mem he, hv⟩
  · rintro ⟨v, hv, hw⟩
    exact ⟨⟨k, v⟩, AList.mem_lookup_iff.mp hv, w, hw, rfl⟩

theorem lookup_union (m m' : Map K V) (k : K) :
    (m ∪ m').lookup k = (m.lookup k).or (m'.lookup k) := by
  by_cases h : k ∈ m
  · obtain ⟨v, hv⟩ := Option.isSome_iff_exists.mp (AList.lookup_isSome.mpr h)
    rw [AList.lookup_union_left h, hv, Option.some_or]
  · rw [AList.lookup_union_right h, AList.lookup_eq_none.mpr h, Option.none_or]

/-- The table of a function over a list of keys. -/
def tabulate (keys : List K) (f : K → V) : Map K V :=
  keys.foldl (fun m k => m.insert k (f k)) ∅

theorem lookup_foldl_insert (f : K → V) (keys : List K) (m : Map K V) (k : K) :
    (keys.foldl (fun m k => m.insert k (f k)) m).lookup k =
      if k ∈ keys then some (f k) else m.lookup k := by
  induction keys generalizing m with
  | nil => simp
  | cons a keys ih =>
    rw [List.foldl_cons, ih, lookup_insert_ite]
    by_cases h : k = a
    · subst h
      simp
    · simp [h]

theorem lookup_tabulate (f : K → V) (keys : List K) (k : K) :
    (tabulate keys f).lookup k = if k ∈ keys then some (f k) else none := by
  rw [tabulate, lookup_foldl_insert, AList.lookup_empty]

theorem tabulate_eq_iff {f g : K → V} {keys : List K} :
    tabulate keys f = tabulate keys g ↔ ∀ k ∈ keys, f k = g k := by
  constructor
  · intro h k hk
    have := congrArg (AList.lookup k) h
    rw [lookup_tabulate, lookup_tabulate, if_pos hk, if_pos hk] at this
    exact Option.some.inj this
  · intro h
    refine List.foldl_ext _ _ _ fun m k hk => ?_
    rw [h k hk]

/-- The sum of `f` over the values. -/
def total (f : V → Nat) (m : Map K V) : Nat := (m.entries.map fun e => f e.2).sum

theorem total_insert (f : V → Nat) (m : Map K V) (k : K) (v : V) :
    total f (m.insert k v) = f v + total f (m.erase k) := by
  simp [total, AList.insert, AList.erase, List.kinsert]

theorem sum_kerase (f : V → Nat) {l : List (Sigma fun _ : K => V)} {k : K} {v : V}
    (h : l.dlookup k = some v) :
    (l.map fun e => f e.2).sum = f v + ((l.kerase k).map fun e => f e.2).sum := by
  induction l with
  | nil => cases h
  | cons e l ih =>
    obtain ⟨a, w⟩ := e
    by_cases hk : k = a
    · subst hk
      rw [List.dlookup_cons_eq, Option.some.injEq] at h
      subst h
      simp
    · have hne : List.dlookup k (⟨a, w⟩ :: l) = List.dlookup k l :=
        List.dlookup_cons_ne l (⟨a, w⟩ : Sigma fun _ : K => V) hk
      rw [hne] at h
      rw [List.kerase_cons_ne hk, List.map_cons, List.map_cons, List.sum_cons, List.sum_cons, ih h]
      omega

theorem total_erase (f : V → Nat) {m : Map K V} {k : K} {v : V} (h : m.lookup k = some v) :
    total f m = f v + total f (m.erase k) :=
  sum_kerase f h

end Map

/-! ## Ordered maps -/

/-- A map with natural number keys whose entries are kept in increasing key order. -/
structure OrdMap (V : Type) where
  entries : List (Nat × V)
  sorted : entries.Pairwise (·.1 < ·.1)

namespace OrdMap
variable {V : Type}

/-- The entry list of a one-element or empty ordered map. -/
def slot (k : Nat) (v : Option V) : List (Nat × V) :=
  v.toList.map (k, ·)

theorem mem_slot {k : Nat} {v : Option V} {e : Nat × V} :
    e ∈ slot k v ↔ e.1 = k ∧ v = some e.2 := by
  cases v <;> simp [slot, Prod.ext_iff, eq_comm]

/-- Replace the value under `k` by `f` of it, inserting or removing the entry as `f` says. -/
def alterEntries (k : Nat) (f : Option V → Option V) : List (Nat × V) → List (Nat × V)
  | [] => slot k (f none)
  | (a, v) :: l =>
    if k < a then slot k (f none) ++ (a, v) :: l
    else if k = a then slot k (f (some v)) ++ l
    else (a, v) :: alterEntries k f l

theorem mem_alterEntries {k : Nat} {f : Option V → Option V} {l : List (Nat × V)}
    {e : Nat × V} (h : e ∈ alterEntries k f l) :
    e ∈ l ∨ e.1 = k ∧ (f none = some e.2 ∨ ∃ v, (k, v) ∈ l ∧ f (some v) = some e.2) := by
  induction l with
  | nil => exact .inr ⟨(mem_slot.mp h).1, .inl (mem_slot.mp h).2⟩
  | cons p l ih =>
    obtain ⟨a, v⟩ := p
    simp only [alterEntries] at h
    split at h
    · rcases List.mem_append.mp h with h | h
      · exact .inr ⟨(mem_slot.mp h).1, .inl (mem_slot.mp h).2⟩
      · exact .inl h
    · split at h
      · rename_i hk
        subst hk
        rcases List.mem_append.mp h with h | h
        · exact .inr ⟨(mem_slot.mp h).1, .inr ⟨v, by simp, (mem_slot.mp h).2⟩⟩
        · exact .inl (List.mem_cons_of_mem _ h)
      · rcases List.mem_cons.mp h with rfl | h
        · exact .inl (by simp)
        · rcases ih h with h | ⟨hk, h | ⟨w, hw, h⟩⟩
          · exact .inl (List.mem_cons_of_mem _ h)
          · exact .inr ⟨hk, .inl h⟩
          · exact .inr ⟨hk, .inr ⟨w, List.mem_cons_of_mem _ hw, h⟩⟩

theorem alterEntries_sorted {k : Nat} {f : Option V → Option V} {l : List (Nat × V)}
    (h : l.Pairwise (·.1 < ·.1)) : (alterEntries k f l).Pairwise (·.1 < ·.1) := by
  have hslot : ∀ (v : Option V), (slot k v).Pairwise (·.1 < ·.1) := by
    intro v; cases v <;> simp [slot]
  induction l with
  | nil => exact hslot _
  | cons p l ih =>
    obtain ⟨a, v⟩ := p
    obtain ⟨ha, hl⟩ := List.pairwise_cons.mp h
    simp only [alterEntries]
    split
    · rename_i hk
      refine List.pairwise_append.mpr ⟨hslot _, h, fun x hx y hy => ?_⟩
      rw [(mem_slot.mp hx).1]
      rcases List.mem_cons.mp hy with rfl | hy
      · exact hk
      · exact Nat.lt_trans hk (ha y hy)
    · split
      · rename_i hk
        subst hk
        refine List.pairwise_append.mpr ⟨hslot _, hl, fun x hx y hy => ?_⟩
        rw [(mem_slot.mp hx).1]
        exact ha y hy
      · refine List.pairwise_cons.mpr ⟨fun x hx => ?_, ih hl⟩
        rcases mem_alterEntries hx with hx | ⟨hx, _⟩
        · exact ha x hx
        · simp only [hx]; omega

def empty : OrdMap V := ⟨[], .nil⟩

def alter (k : Nat) (f : Option V → Option V) (m : OrdMap V) : OrdMap V :=
  ⟨alterEntries k f m.entries, alterEntries_sorted m.sorted⟩

def get? (m : OrdMap V) (k : Nat) : Option V :=
  (m.entries.find? (·.1 = k)).map (·.2)

def isEmpty (m : OrdMap V) : Bool := m.entries.isEmpty

theorem get?_eq_some {m : OrdMap V} {k : Nat} {v : V} : m.get? k = some v ↔ (k, v) ∈ m.entries := by
  have hsorted := m.sorted
  unfold get?
  generalize m.entries = l at hsorted
  induction l with
  | nil => simp
  | cons p l ih =>
    obtain ⟨a, w⟩ := p
    obtain ⟨ha, hl⟩ := List.pairwise_cons.mp hsorted
    rw [List.find?_cons]
    by_cases h : a = k
    · subst h
      have hnot : (a, v) ∉ l := fun hm => Nat.lt_irrefl a (ha _ hm)
      simp [hnot, eq_comm]
    · simp [h, ih hl, Ne.symm h]

theorem get?_eq_none {m : OrdMap V} {k : Nat} : m.get? k = none ↔ ∀ v, (k, v) ∉ m.entries := by
  simp [Option.eq_none_iff_forall_ne_some, get?_eq_some]

theorem mem_alterEntries_ne {k : Nat} {f : Option V → Option V} {l : List (Nat × V)}
    {e : Nat × V} (h : e.1 ≠ k) : e ∈ alterEntries k f l ↔ e ∈ l := by
  have hslot : ∀ v, e ∉ slot k v := fun v hm => h (mem_slot.mp hm).1
  induction l with
  | nil => simp [alterEntries, hslot]
  | cons p l ih =>
    obtain ⟨a, v⟩ := p
    simp only [alterEntries]
    split
    · simp [hslot]
    · split
      · rename_i hk
        have hne : e ≠ (a, v) := by
          rintro rfl
          exact h hk.symm
        simp [hslot, hne]
      · simp [ih]

theorem get?_alter (m : OrdMap V) (k j : Nat) (f : Option V → Option V) :
    (m.alter k f).get? j = if j = k then f (m.get? k) else m.get? j := by
  split
  · rename_i hj
    subst hj
    have hsorted := m.sorted
    have hslot : ∀ v : Option V, ((slot j v).find? (·.1 = j)).map (·.2) = v := by
      intro v
      cases v <;> simp [slot]
    have hlt : ∀ {l : List (Nat × V)}, (∀ e ∈ l, j < e.1) → l.find? (·.1 = j) = none := by
      intro l hl
      refine List.find?_eq_none.mpr fun e he => ?_
      have := hl e he
      simp only [decide_eq_true_eq]
      omega
    unfold get? alter
    dsimp only
    generalize m.entries = l at hsorted
    induction l with
    | nil => simp [alterEntries, hslot]
    | cons p l ih =>
      obtain ⟨a, v⟩ := p
      obtain ⟨ha, hl⟩ := List.pairwise_cons.mp hsorted
      simp only [alterEntries]
      split
      · rename_i hk
        have hnone : ((a, v) :: l).find? (·.1 = j) = none := by
          refine hlt fun e he => ?_
          rcases List.mem_cons.mp he with rfl | he
          · exact hk
          · exact Nat.lt_trans hk (ha e he)
        rw [List.find?_append, hnone, Option.or_none, hslot]
        rfl
      · split
        · rename_i hk
          subst hk
          rw [List.find?_append, hlt ha, Option.or_none, hslot]
          simp
        · rename_i hk
          simp [Ne.symm hk, ih hl]
  · rename_i hj
    refine Option.ext fun v => ?_
    simp only [get?_eq_some, alter, mem_alterEntries_ne (e := (j, v)) hj]

theorem isEmpty_iff {m : OrdMap V} : m.isEmpty = true ↔ ∀ k, m.get? k = none := by
  simp only [isEmpty, List.isEmpty_iff, get?_eq_none, List.eq_nil_iff_forall_not_mem, Prod.forall]

/-- Ordered maps that agree on every key are equal. -/
theorem ext_get? {m m' : OrdMap V} (h : ∀ k, m.get? k = m'.get? k) : m = m' := by
  have hnodup (m : OrdMap V) : m.entries.Nodup :=
    m.sorted.imp fun hlt heq => Nat.ne_of_lt hlt (congrArg Prod.fst heq)
  have hperm : m.entries.Perm m'.entries := by
    refine (List.perm_ext_iff_of_nodup (hnodup m) (hnodup m')).mpr fun e => ?_
    rw [← get?_eq_some (k := e.1) (v := e.2), h, get?_eq_some]
  have hentries : m.entries = m'.entries :=
    hperm.eq_of_pairwise (fun a b _ _ hab hba => absurd hba (Nat.lt_asymm hab)) m.sorted m'.sorted
  cases m
  cases m'
  cases hentries
  rfl

/-- What was put under a new key and taken away again leaves no trace. -/
theorem alter_alter {m : OrdMap V} {k : Nat} {f f' : Option V → Option V} (hk : m.get? k = none)
    (hf : f' (f none) = none) : (m.alter k f).alter k f' = m := by
  refine ext_get? fun j => ?_
  rw [get?_alter, get?_alter, get?_alter, if_pos rfl, hk, hf]
  split
  · rename_i hj
    rw [hj, hk]
  · rfl

end OrdMap

end TunnelWeaver
