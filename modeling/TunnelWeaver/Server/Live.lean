import Mathlib

/-! The change bus behind the console (`live.rs`): who may see a change, what it is about, and which
views it makes stale. -/

namespace TunnelWeaver.Server

/-- How many changes may be queued for a subscriber that has fallen behind. -/
def liveCapacity : Nat := 256

/-- Whose console may see a change. -/
inductive Viewer
  | anyone
  | person (id : Int)
  | account (id : Int)
  deriving DecidableEq

/-- What a change is about. -/
inductive Entity
  | machine
  | tunnel
  | statistics
  | session
  deriving DecidableEq

/-- The ids a change touches, or that a view cares about. -/
inductive Ids
  | all
  | only (ids : Finset Int)
  deriving DecidableEq

/-- What a view listens to: an entity, and which of its ids its last render mentioned. -/
structure Interest where
  entity : Entity
  ids : Ids
  deriving DecidableEq

/-- A published change; without an entity it concerns every view of its viewer. -/
structure Change where
  viewer : Viewer
  entity : Option Entity
  ids : Ids
  deriving DecidableEq

/-- A change announced to `viewer` reaches a console of `subscriber`. -/
def Viewer.reaches (viewer subscriber : Viewer) : Bool := viewer = .anyone ∨ viewer = subscriber

/-- An entity-wide side reaches everything; two id sets must intersect. -/
def Ids.touches : Ids → Ids → Bool
  | .only change, .only interest => ¬Disjoint change interest
  | _, _ => true

namespace Change

def visibleTo (viewer : Viewer) : Change := ⟨viewer, none, .all⟩

def ofEntity (c : Change) (entity : Entity) : Change := { c with entity := some entity, ids := .all }

def select (c : Change) (id : Int) : Change :=
  match c.ids with
  | .all => { c with ids := .only {id} }
  | .only set => { c with ids := .only (insert id set) }

def withIds (c : Change) (ids : List Int) : Change := ids.foldl select c

/-- The change makes a view of `viewer` with these interests stale. -/
def invalidates (c : Change) (viewer : Viewer) (interests : List Interest) : Bool :=
  if ¬c.viewer.reaches viewer then false
  else match c.entity with
    | none => true
    | some entity => interests.any fun interest =>
        interest.entity = entity ∧ c.ids.touches interest.ids

end Change

namespace Interest

def all (entity : Entity) : Interest := ⟨entity, .all⟩

def these (entity : Entity) (ids : List Int) : Interest := ⟨entity, .only ids.toFinset⟩

end Interest

/-! ## Narrowing -/

section
variable {viewer : Viewer} {interests : List Interest}

theorem Change.select_only (c : Change) (set : Finset Int) (ids : List Int) :
    ({ c with ids := .only set } : Change).withIds ids = { c with ids := .only (set ∪ ids.toFinset) } := by
  induction ids generalizing set with
  | nil => simp [withIds]
  | cons id ids ih =>
    refine (ih (insert id set)).trans ?_
    rw [List.toFinset_cons, Finset.union_insert, Finset.insert_union]

theorem Change.withIds_eq {entity : Entity} {ids : List Int} (hne : ids ≠ []) :
    ((visibleTo viewer).ofEntity entity).withIds ids =
      ⟨viewer, some entity, .only ids.toFinset⟩ := by
  cases ids with
  | nil => exact absurd rfl hne
  | cons id ids =>
    refine (select_only ⟨viewer, some entity, .all⟩ {id} ids).trans ?_
    rw [List.toFinset_cons, Finset.insert_eq]

theorem Ids.touches_only {change : Finset Int} {ids : Ids} : (Ids.only change).touches ids = true ↔
    ids = .all ∨ ∃ shown, ids = .only shown ∧ ∃ id ∈ change, id ∈ shown := by
  cases ids with
  | all => simp [touches]
  | only shown => simp [touches, Finset.not_disjoint_iff]

/-- A change of some ids reaches the views of its viewer that show one of them, or every id. -/
theorem Change.invalidates_withIds {entity : Entity} {ids : List Int} (hne : ids ≠ []) :
    (((visibleTo viewer).ofEntity entity).withIds ids).invalidates viewer interests = true ↔
      ∃ interest ∈ interests, interest.entity = entity ∧
        (interest.ids = .all ∨ ∃ shown, interest.ids = .only shown ∧ ∃ id ∈ ids, id ∈ shown) := by
  rw [withIds_eq hne, invalidates, if_neg (by simp [Viewer.reaches]), List.any_eq_true]
  simp only [Ids.touches_only, decide_eq_true_eq, List.mem_toFinset]

/-- Without ids a change reaches every view of its entity. -/
theorem Change.invalidates_ofEntity {entity : Entity} :
    ((visibleTo viewer).ofEntity entity).invalidates viewer interests = true ↔
      ∃ interest ∈ interests, interest.entity = entity := by
  rw [invalidates, if_neg (by simp [Viewer.reaches, ofEntity, visibleTo])]
  simp [ofEntity, Ids.touches]

end

end TunnelWeaver.Server
