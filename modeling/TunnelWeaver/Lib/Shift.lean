import TunnelWeaver.Lib.Map

/-! Ordered maps whose values are mapped, or whose keys are all moved up by the same amount. -/

namespace TunnelWeaver.OrdMap

variable {V W : Type}

def mapValues (f : V → W) (m : OrdMap V) : OrdMap W where
  entries := m.entries.map fun e => (e.1, f e.2)
  sorted := List.pairwise_map.mpr m.sorted

def shiftKeys (d : Nat) (m : OrdMap V) : OrdMap V where
  entries := m.entries.map fun e => (e.1 + d, e.2)
  sorted := List.pairwise_map.mpr (m.sorted.imp fun h => Nat.add_lt_add_right h d)

theorem get?_mapValues (f : V → W) (m : OrdMap V) (k : Nat) :
    (m.mapValues f).get? k = (m.get? k).map f := by
  refine Option.ext fun w => ?_
  simp only [get?_eq_some, Option.map_eq_some_iff, mapValues, List.mem_map, Prod.mk.injEq]
  constructor
  · rintro ⟨e, he, rfl, rfl⟩
    exact ⟨e.2, he, rfl⟩
  · rintro ⟨v, hv, rfl⟩
    exact ⟨(k, v), hv, rfl, rfl⟩

theorem get?_shiftKeys_add (d : Nat) (m : OrdMap V) (k : Nat) :
    (m.shiftKeys d).get? (k + d) = m.get? k := by
  refine Option.ext fun v => ?_
  simp only [get?_eq_some, shiftKeys, List.mem_map, Prod.mk.injEq]
  constructor
  · rintro ⟨e, he, hk, rfl⟩
    obtain rfl : e.1 = k := Nat.add_right_cancel hk
    exact he
  · exact fun hv => ⟨(k, v), hv, rfl, rfl⟩

theorem get?_shiftKeys_of_lt {d k : Nat} (h : k < d) (m : OrdMap V) :
    (m.shiftKeys d).get? k = none := by
  rw [get?_eq_none]
  rintro v hv
  obtain ⟨e, -, he⟩ := List.mem_map.mp hv
  have := (Prod.mk.inj he).1
  omega

@[simp] theorem isEmpty_mapValues (f : V → W) (m : OrdMap V) :
    (m.mapValues f).isEmpty = m.isEmpty := List.isEmpty_map ..

@[simp] theorem isEmpty_shiftKeys (d : Nat) (m : OrdMap V) :
    (m.shiftKeys d).isEmpty = m.isEmpty := List.isEmpty_map ..

/-- Changing a value and moving the keys can be swapped. -/
theorem alter_shiftKeys (d : Nat) (m : OrdMap V) (k : Nat) (f : Option V → Option V) :
    (m.shiftKeys d).alter (k + d) f = (m.alter k f).shiftKeys d := by
  refine ext_get? fun j => ?_
  rcases Nat.lt_or_ge j d with hj | hj
  · rw [get?_alter, get?_shiftKeys_of_lt hj, get?_shiftKeys_of_lt hj, if_neg (by omega)]
  · obtain ⟨i, rfl⟩ := Nat.exists_eq_add_of_le' hj
    rw [get?_alter, get?_shiftKeys_add, get?_shiftKeys_add, get?_shiftKeys_add, get?_alter]
    simp only [Nat.add_right_cancel_iff]

/-- So can changing a value and mapping the values, where the changes agree. -/
theorem alter_mapValues {g : V → W} {f : Option V → Option V} {f' : Option W → Option W}
    (h : ∀ o, f' (o.map g) = (f o).map g) (m : OrdMap V) (k : Nat) :
    (m.mapValues g).alter k f' = (m.alter k f).mapValues g := by
  refine ext_get? fun j => ?_
  rw [get?_alter, get?_mapValues, get?_mapValues, get?_mapValues, get?_alter, h]
  split <;> rfl

theorem shiftKeys_zero (m : OrdMap V) : m.shiftKeys 0 = m := by
  refine ext_get? fun k => ?_
  exact get?_shiftKeys_add 0 m k

theorem shiftKeys_shiftKeys (d d' : Nat) (m : OrdMap V) :
    (m.shiftKeys d).shiftKeys d' = m.shiftKeys (d + d') := by
  refine ext_get? fun k => ?_
  rcases Nat.lt_or_ge k d' with hk | hk
  · rw [get?_shiftKeys_of_lt hk, get?_shiftKeys_of_lt (by omega)]
  obtain ⟨i, rfl⟩ := Nat.exists_eq_add_of_le' hk
  rw [get?_shiftKeys_add]
  rcases Nat.lt_or_ge i d with hi | hi
  · rw [get?_shiftKeys_of_lt hi, get?_shiftKeys_of_lt (by omega)]
  · obtain ⟨j, rfl⟩ := Nat.exists_eq_add_of_le' hi
    rw [get?_shiftKeys_add, Nat.add_assoc, get?_shiftKeys_add]

theorem mapValues_mapValues {U : Type} (f : V → W) (g : W → U) (m : OrdMap V) :
    (m.mapValues f).mapValues g = m.mapValues fun v => g (f v) := by
  refine ext_get? fun k => ?_
  rw [get?_mapValues, get?_mapValues, get?_mapValues, Option.map_map]
  rfl

theorem mapValues_id {f : V → V} (h : ∀ v, f v = v) (m : OrdMap V) : m.mapValues f = m := by
  refine ext_get? fun k => ?_
  rw [get?_mapValues]
  cases m.get? k with
  | none => rfl
  | some v => exact congrArg some (h v)

end TunnelWeaver.OrdMap
