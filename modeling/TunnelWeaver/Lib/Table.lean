import Mathlib

/-! Tables: rows under the ids an increasing counter hands out, as an auto-increment primary key
does. A scan meets the rows in the order of their ids. -/

namespace TunnelWeaver

structure Table (R : Type) where
  rows : List (Nat × R)
  next : Nat
  sorted : rows.Pairwise (·.1 < ·.1)
  fresh : ∀ e ∈ rows, e.1 < next

namespace Table
variable {R : Type}

theorem sorted_nil : ([] : List (Nat × R)).Pairwise (·.1 < ·.1) := .nil

theorem fresh_nil : ∀ e ∈ ([] : List (Nat × R)), e.1 < 1 := fun _ h => absurd h List.not_mem_nil

/-- The table without rows; the first id is 1. -/
def empty : Table R := ⟨[], 1, sorted_nil, fresh_nil⟩

instance : EmptyCollection (Table R) := ⟨empty⟩

/-- The row with an id. -/
def get? (t : Table R) (id : Nat) : Option R := (t.rows.find? (·.1 == id)).map (·.2)

/-- The first row that `p` selects, with its id. -/
def find? (t : Table R) (p : Nat → R → Bool) : Option (Nat × R) := t.rows.find? fun e => p e.1 e.2

/-- How many rows `p` selects. -/
def count (t : Table R) (p : Nat → R → Bool) : Nat := t.rows.countP fun e => p e.1 e.2

/-- Add a row under the id `t.next`. -/
def insert (t : Table R) (r : R) : Table R where
  rows := t.rows ++ [(t.next, r)]
  next := t.next + 1
  sorted := by
    refine List.pairwise_append.mpr ⟨t.sorted, List.pairwise_singleton .., ?_⟩
    intro e he e' he'
    rw [List.mem_singleton.mp he']
    exact t.fresh e he
  fresh := by
    intro e he
    rcases List.mem_append.mp he with he | he
    · exact Nat.lt_succ_of_lt (t.fresh e he)
    · rw [List.mem_singleton.mp he]
      exact Nat.lt_succ_self _

/-- Apply `f` to the rows `p` selects. -/
def update (t : Table R) (p : Nat → R → Bool) (f : R → R) : Table R where
  rows := t.rows.map fun e => (e.1, if p e.1 e.2 then f e.2 else e.2)
  next := t.next
  sorted := List.pairwise_map.mpr t.sorted
  fresh := by
    intro e he
    obtain ⟨e', he', rfl⟩ := List.mem_map.mp he
    exact t.fresh e' he'

/-- Replace the row with an id. -/
def set (t : Table R) (id : Nat) (r : R) : Table R := t.update (fun i _ => i == id) fun _ => r

/-- Remove the rows `p` selects. -/
def delete (t : Table R) (p : Nat → R → Bool) : Table R where
  rows := t.rows.filter fun e => !p e.1 e.2
  next := t.next
  sorted := t.sorted.filter _
  fresh := fun e he => t.fresh e (List.mem_of_mem_filter he)

variable {t : Table R} {p : Nat → R → Bool} {f : R → R} {i : Nat} {r : R}

theorem eq_of_mem {r' : R} (h : (i, r) ∈ t.rows) (h' : (i, r') ∈ t.rows) : r = r' := by
  have hnodup : (t.rows.map (·.1)).Nodup :=
    List.pairwise_map.mpr (t.sorted.imp fun hlt => Nat.ne_of_lt hlt)
  exact congrArg Prod.snd (List.inj_on_of_nodup_map hnodup h h' rfl)

theorem get?_eq_some : t.get? i = some r ↔ (i, r) ∈ t.rows := by
  constructor
  · intro h
    obtain ⟨e, he, rfl⟩ := Option.map_eq_some_iff.mp h
    have hi : e.1 = i := by simpa using List.find?_some he
    rw [← hi]
    exact List.mem_of_find?_eq_some he
  · intro h
    cases hf : t.rows.find? (·.1 == i) with
    | none => simpa using List.find?_eq_none.mp hf _ h
    | some e =>
      have hi : e.1 = i := by simpa using List.find?_some hf
      have he : (i, e.2) ∈ t.rows := hi ▸ List.mem_of_find?_eq_some hf
      rw [get?, hf, Option.map_some, eq_of_mem h he]

theorem lt_next (h : t.get? i = some r) : i < t.next := t.fresh _ (get?_eq_some.mp h)

@[simp] theorem get?_next : t.get? t.next = none := by
  by_contra h
  obtain ⟨r, hr⟩ := Option.ne_none_iff_exists'.mp h
  exact absurd (lt_next hr) (Nat.lt_irrefl _)

@[simp] theorem next_insert : (t.insert r).next = t.next + 1 := rfl

@[simp] theorem next_update : (t.update p f).next = t.next := rfl

@[simp] theorem next_set {id : Nat} : (t.set id r).next = t.next := rfl

@[simp] theorem next_delete : (t.delete p).next = t.next := rfl

@[simp] theorem get?_empty : (∅ : Table R).get? i = none := rfl

theorem get?_insert : (t.insert r).get? i = if i = t.next then some r else t.get? i := by
  split
  · rename_i hi
    subst hi
    exact get?_eq_some.mpr (List.mem_append_right _ (List.mem_singleton_self _))
  · rename_i hi
    refine Option.ext fun r' => ?_
    rw [get?_eq_some, get?_eq_some, insert, List.mem_append, List.mem_singleton, Prod.mk.injEq]
    exact ⟨fun h => h.resolve_right fun h => hi h.1, .inl⟩

theorem get?_update :
    (t.update p f).get? i = (t.get? i).map fun r => if p i r then f r else r := by
  refine Option.ext fun r' => ?_
  rw [get?_eq_some, Option.map_eq_some_iff, update, List.mem_map]
  constructor
  · rintro ⟨⟨j, r⟩, hr, he⟩
    obtain ⟨rfl, rfl⟩ := Prod.mk.injEq .. ▸ he
    exact ⟨r, get?_eq_some.mpr hr, rfl⟩
  · rintro ⟨r, hr, rfl⟩
    exact ⟨(i, r), get?_eq_some.mp hr, rfl⟩

theorem get?_set {id : Nat} :
    (t.set id r).get? i = if i = id then (t.get? i).map fun _ => r else t.get? i := by
  rw [set, get?_update]
  by_cases hi : i = id <;> simp [hi]

theorem get?_delete : (t.delete p).get? i = (t.get? i).filter fun r => !p i r := by
  refine Option.ext fun r' => ?_
  rw [get?_eq_some, Option.filter_eq_some_iff, get?_eq_some, delete, List.mem_filter]

theorem find?_some {e : Nat × R} (h : t.find? p = some e) :
    t.get? e.1 = some e.2 ∧ p e.1 e.2 = true := by
  have hp := List.find?_some (l := t.rows) h
  exact ⟨get?_eq_some.mpr (List.mem_of_find?_eq_some h), hp⟩

theorem find?_eq_none : t.find? p = none ↔ ∀ {i r}, t.get? i = some r → p i r = false := by
  rw [find?, List.find?_eq_none]
  constructor
  · intro h i r hr
    simpa using h _ (get?_eq_some.mp hr)
  · rintro h ⟨i, r⟩ hr
    simpa using h (get?_eq_some.mpr hr)

/-- A selection that an update does not change finds the same row, updated. -/
theorem find?_update {q : Nat → R → Bool} (h : ∀ i r, q i (f r) = q i r) :
    (t.update p f).find? q = (t.find? q).map fun e => (e.1, if p e.1 e.2 then f e.2 else e.2) := by
  have hq (e : Nat × R) : q e.1 (if p e.1 e.2 then f e.2 else e.2) = q e.1 e.2 := by
    split
    · exact h ..
    · rfl
  simp only [find?, update, List.find?_map, Function.comp_def, hq]

/-- A selection that does not select the new row finds what it found. -/
theorem find?_insert (h : p t.next r = false) : (t.insert r).find? p = t.find? p := by
  rw [find?, insert, List.find?_append, List.find?_singleton, h]
  simp [find?]

/-- The new row is found where nothing was. -/
theorem find?_insert_new (h : t.find? p = none) (hp : p t.next r = true) :
    (t.insert r).find? p = some (t.next, r) := by
  rw [find?, List.find?_eq_none] at h
  rw [find?, insert, List.find?_append, List.find?_eq_none.mpr h, Option.none_or]
  exact List.find?_cons_of_pos hp

/-- Replacing the row that a selection finds by one it selects too. -/
theorem find?_set {id : Nat} {r' : R} (h : t.find? p = some (id, r)) (hp : p id r' = true) :
    (t.set id r').find? p = some (id, r') := by
  have hget := (find?_some h).1
  have hsame : ∀ e ∈ t.rows, p e.1 (if e.1 == id then r' else e.2) = p e.1 e.2 := by
    rintro ⟨i, r₀⟩ he
    by_cases hi : i = id
    · subst hi
      obtain rfl := eq_of_mem he (get?_eq_some.mp hget)
      rw [if_pos (beq_self_eq_true i), hp, (find?_some h).2]
    · rw [if_neg (by simpa using hi)]
  have hfind : t.rows.find? (fun e => p e.1 (if e.1 == id then r' else e.2)) = some (id, r) := by
    rw [← h]
    exact List.find?_congr hsame
  simp only [find?, set, update, List.find?_map, Function.comp_def, hfind, Option.map_some,
    beq_self_eq_true, if_true]

theorem count_eq_zero : t.count p = 0 ↔ ∀ {i r}, t.get? i = some r → p i r = false := by
  rw [count, List.countP_eq_zero]
  constructor
  · intro h i r hr
    simpa using h _ (get?_eq_some.mp hr)
  · rintro h ⟨i, r⟩ hr
    simpa using h (get?_eq_some.mpr hr)

theorem count_insert : (t.insert r).count p = t.count p + if p t.next r then 1 else 0 := by
  rw [count, insert, List.countP_append, List.countP_singleton, count]

theorem count_mono {q : Nat → R → Bool} (h : ∀ i r, p i r → q i r) : t.count p ≤ t.count q :=
  List.countP_mono_left fun e _ => h e.1 e.2

/-- A selection of one id finds its row or nothing. -/
theorem count_id {id : Nat} {q : R → Bool} :
    t.count (fun i r => i = id && q r) = 1 ↔ ∃ r, t.get? id = some r ∧ q r = true := by
  have hnodup : (t.rows.map (·.1)).Nodup :=
    List.pairwise_map.mpr (t.sorted.imp fun hlt => Nat.ne_of_lt hlt)
  constructor
  · intro h
    have hpos : 0 < t.count fun i r => i = id && q r := h ▸ Nat.one_pos
    obtain ⟨⟨i, r⟩, he, hr⟩ := List.countP_pos_iff.mp hpos
    simp only [Bool.and_eq_true, decide_eq_true_eq] at hr
    obtain ⟨rfl, hr⟩ := hr
    exact ⟨r, get?_eq_some.mpr he, hr⟩
  · rintro ⟨r, hr, hq⟩
    have hmem := get?_eq_some.mp hr
    have hcount : t.rows.countP (fun e => e.1 = id && q e.2) = (t.rows.map (·.1)).count id := by
      rw [List.count_eq_countP, List.countP_map]
      refine List.countP_congr fun e he => ?_
      by_cases hi : e.1 = id
      · have hsame : (id, e.2) ∈ t.rows := hi ▸ he
        rw [eq_of_mem hsame hmem]
        simp [hi, hq]
      · simp [hi]
    rw [count, hcount]
    exact List.count_eq_one_of_mem hnodup (List.mem_map_of_mem hmem)

end Table

end TunnelWeaver
