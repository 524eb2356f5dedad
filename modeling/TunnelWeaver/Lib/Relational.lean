import TunnelWeaver.Lib.Table

/-! Tables that refer to each other by foreign keys, and `DELETE` statements on them. A delete takes
the rows it selects and every row that a cascading key binds to one of these; it is refused while a
restricting key refers to a row it would take. -/

namespace TunnelWeaver.Relational

/-- A column that holds the id of a row of another table. -/
structure Reference (T R : Type) where
  parent : T
  column : R → Option Nat

structure Schema (T : Type) where
  Row : T → Type
  /-- `ON DELETE CASCADE`. -/
  cascades : (t : T) → List (Reference T (Row t))
  /-- `ON DELETE RESTRICT`. -/
  restricts : (t : T) → List (Reference T (Row t))
  /-- `ON DELETE SET NULL`. -/
  nulls : (t : T) → Option (Reference T (Row t))
  /-- Empty the column of the `SET NULL` key. -/
  clear : (t : T) → Row t → Row t
  /-- How many cascades lead to a table at most. -/
  rank : T → Nat
  descends : ∀ t, ∀ k ∈ cascades t, rank k.parent < rank t
  clear_null : ∀ t k, nulls t = some k → ∀ r, k.column (clear t r) = none
  clear_cascade : ∀ t, ∀ k ∈ cascades t, ∀ r, k.column (clear t r) = k.column r
  clear_restrict : ∀ t, ∀ k ∈ restricts t, ∀ r, k.column (clear t r) = k.column r

variable {T : Type} {S : Schema T}

abbrev Schema.Db (S : Schema T) := (t : T) → Table (S.Row t)

/-- Every reference of a table. -/
def Schema.references (S : Schema T) (t : T) : List (Reference T (S.Row t)) :=
  S.cascades t ++ S.restricts t ++ (S.nulls t).toList

/-- Every reference leads to a row. -/
def Intact (db : S.Db) : Prop := ∀ t i r, (db t).get? i = some r → ∀ k ∈ S.references t, ∀ p,
  k.column r = some p → ∃ r', (db k.parent).get? p = some r'

theorem intact_iff {db : S.Db} : Intact db ↔ ∀ t, ∀ e ∈ (db t).rows, ∀ k ∈ S.references t,
    (k.column e.2).all (fun p => ((db k.parent).get? p).isSome) = true := by
  simp only [Intact, Option.all_eq_true, Option.isSome_iff_exists]
  constructor
  · intro h t e he k hk p hp
    exact h t e.1 e.2 (Table.get?_eq_some.mpr he) k hk p hp
  · intro h t i r hr k hk p hp
    exact h t (i, r) (Table.get?_eq_some.mp hr) k hk p hp

/-! ## What a delete takes -/

section
variable (db : S.Db) (sel : T → Nat → Bool)

/-- A row that is selected, or that a cascading key binds to a doomed row. -/
inductive Doomed : T → Nat → Prop
  | selected {t i} : sel t i = true → Doomed t i
  | cascade {t i r k p} : (db t).get? i = some r → k ∈ S.cascades t → k.column r = some p →
    Doomed k.parent p → Doomed t i

/-- `Doomed` over at most `n` cascades. -/
def doomed : Nat → T → Nat → Bool
  | 0, t, i => sel t i
  | n + 1, t, i => sel t i || ((db t).get? i).any fun r =>
      (S.cascades t).any fun k => (k.column r).any (doomed n k.parent)

/-- The rows that a delete takes. -/
def goes (t : T) (i : Nat) : Bool := doomed db sel (S.rank t) t i

variable {db sel} {t : T} {i n : Nat}

theorem doomed_succ : doomed db sel (n + 1) t i = true ↔ sel t i = true ∨ ∃ r,
    (db t).get? i = some r ∧ ∃ k ∈ S.cascades t, ∃ p, k.column r = some p ∧
      doomed db sel n k.parent p = true := by
  simp only [doomed, Bool.or_eq_true, Option.any_eq_true, List.any_eq_true]

theorem Doomed.of_doomed (h : doomed db sel n t i = true) : Doomed db sel t i := by
  induction n generalizing t i with
  | zero => exact .selected h
  | succ n ih =>
    rcases doomed_succ.mp h with h | ⟨r, hr, k, hk, p, hp, h⟩
    · exact .selected h
    · exact .cascade hr hk hp (ih h)

/-- The rank of the table is enough. -/
theorem Doomed.doomed (h : Doomed db sel t i) (hn : S.rank t ≤ n) : doomed db sel n t i = true := by
  induction h generalizing n with
  | @selected t i h =>
    cases n with
    | zero => exact h
    | succ n => exact doomed_succ.mpr (.inl h)
  | @cascade t i r k p hr hk hp _ ih =>
    have hlt := S.descends t k hk
    cases n with
    | zero => omega
    | succ n => exact doomed_succ.mpr (.inr ⟨r, hr, k, hk, p, hp, ih (by omega)⟩)

theorem goes_iff : goes db sel t i = true ↔ Doomed db sel t i :=
  ⟨.of_doomed, fun h => h.doomed (Nat.le_refl _)⟩

/-- One cascade back. -/
theorem Doomed.iff : Doomed db sel t i ↔ sel t i = true ∨ ∃ r, (db t).get? i = some r ∧
    ∃ k ∈ S.cascades t, ∃ p, k.column r = some p ∧ Doomed db sel k.parent p := by
  constructor
  · intro h
    cases h with
    | selected h => exact .inl h
    | cascade hr hk hp h => exact .inr ⟨_, hr, _, hk, _, hp, h⟩
  · rintro (h | ⟨r, hr, k, hk, p, hp, h⟩)
    · exact .selected h
    · exact .cascade hr hk hp h

theorem Doomed.mono {sel' : T → Nat → Bool} (h : Doomed db sel t i)
    (hsel : ∀ t i, sel t i = true → sel' t i = true) : Doomed db sel' t i := by
  induction h with
  | selected h => exact .selected (hsel _ _ h)
  | cascade hr hk hp _ ih => exact .cascade hr hk hp ih

end

/-! ## What a delete leaves -/

section
variable (S) (gone : T → Nat → Bool)

/-- A row once the rows in `gone` have gone. -/
def release (t : T) (r : S.Row t) : S.Row t :=
  if (S.nulls t).any fun k => (k.column r).any (gone k.parent) then S.clear t r else r

/-- From `db` to `db'` the rows in `gone` have gone, and no others. -/
def Erases (db db' : S.Db) : Prop := ∀ t i,
  (db' t).get? i = if gone t i then none else ((db t).get? i).map (release S gone t)

variable {S gone} {db db' db'' : S.Db} {gone' : T → Nat → Bool} {t : T} {i : Nat} {r : S.Row t}

theorem release_column {k : Reference T (S.Row t)} (hk : k ∈ S.cascades t ++ S.restricts t) :
    k.column (release S gone t r) = k.column r := by
  unfold release
  split
  · rcases List.mem_append.mp hk with hk | hk
    · exact S.clear_cascade t k hk r
    · exact S.clear_restrict t k hk r
  · rfl

theorem release_of_nulls (h : S.nulls t = none) : release S gone t r = r := by
  rw [release, h]
  rfl

theorem release_of_not (h : ∀ k, S.nulls t = some k → ∀ p, k.column r = some p →
    gone k.parent p = false) : release S gone t r = r := by
  refine if_neg fun hany => ?_
  obtain ⟨k, hk, hgone⟩ := Option.any_eq_true _ _ |>.mp hany
  obtain ⟨p, hp, hgone⟩ := Option.any_eq_true _ _ |>.mp hgone
  rw [h k hk p hp] at hgone
  cases hgone

theorem release_of_gone {k : Reference T (S.Row t)} {p : Nat} (hk : S.nulls t = some k)
    (hp : k.column r = some p) (hgone : gone k.parent p = true) :
    release S gone t r = S.clear t r := by
  rw [release, hk]
  exact if_pos (by simp [hp, hgone])

/-- Clearing leaves nothing to clear, so that rows may go in any number of rounds. -/
theorem release_release : release S gone' t (release S gone t r) =
    release S (fun t i => gone t i || gone' t i) t r := by
  cases hk : S.nulls t with
  | none => rw [release_of_nulls hk, release_of_nulls hk, release_of_nulls hk]
  | some k =>
    cases hp : k.column r with
    | none =>
      have hnot (g : T → Nat → Bool) : release S g t r = r := by
        refine release_of_not fun k' hk' p hp' => ?_
        obtain rfl : k = k' := Option.some.inj (hk.symm.trans hk')
        rw [hp] at hp'
        cases hp'
      rw [hnot, hnot, hnot]
    | some p =>
      by_cases hgone : gone k.parent p = true
      · rw [release_of_gone hk hp hgone, release_of_gone hk hp (by simp [hgone])]
        refine release_of_not fun k' hk' p' hp' => ?_
        rw [S.clear_null t k' hk' r] at hp'
        cases hp'
      · have hself : release S gone t r = r := by
          refine release_of_not fun k' hk' p' hp' => ?_
          obtain rfl : k = k' := Option.some.inj (hk.symm.trans hk')
          obtain rfl : p = p' := Option.some.inj (hp.symm.trans hp')
          exact eq_false_of_ne_true hgone
        rw [hself]
        simp [release, hk, hp, hgone]

theorem Erases.refl : Erases S (fun _ _ => false) db db := by
  intro t i
  have hself : (release S (fun _ _ => false) t : S.Row t → S.Row t) = id :=
    funext fun r => release_of_not fun _ _ _ _ => rfl
  rw [if_neg Bool.false_ne_true, hself, Option.map_id_fun, id]

theorem Erases.trans (h : Erases S gone db db') (h' : Erases S gone' db' db'') :
    Erases S (fun t i => gone t i || gone' t i) db db'' := by
  intro t i
  rw [h' t i, h t i]
  by_cases hg' : gone' t i = true
  · simp [hg']
  · by_cases hg : gone t i = true
    · simp [hg]
    · simp [hg, hg', Option.map_map, Function.comp_def, release_release]

/-- A row that is left was there. -/
theorem Erases.get?_some (h : Erases S gone db db') {r' : S.Row t}
    (hr' : (db' t).get? i = some r') :
    gone t i = false ∧ ∃ r, (db t).get? i = some r ∧ r' = release S gone t r := by
  rw [h t i] at hr'
  by_cases hg : gone t i = true
  · rw [if_pos hg] at hr'
    cases hr'
  · rw [if_neg hg] at hr'
    obtain ⟨r, hr, rfl⟩ := Option.map_eq_some_iff.mp hr'
    exact ⟨eq_false_of_ne_true hg, r, hr, rfl⟩

theorem Erases.kept (h : Erases S gone db db') (hr : (db t).get? i = some r)
    (hg : gone t i = false) : (db' t).get? i = some (release S gone t r) := by
  rw [h t i, hr, hg]
  rfl

theorem Erases.erased (h : Erases S gone db db') (hg : gone t i = true) :
    (db' t).get? i = none := by
  rw [h t i, if_pos hg]

end

/-! ## One delete -/

section
variable [Fintype T] (db : S.Db) (sel : T → Nat → Bool)

/-- A restricting key refers to a row that would go. -/
def Refused : Prop := ∃ t, ∃ e ∈ (db t).rows, ∃ k ∈ S.restricts t,
  (k.column e.2).any (goes db sel k.parent) = true

instance : Decidable (Refused db sel) := by
  unfold Refused
  infer_instance

/-- Delete the selected rows; nothing where the database refuses. -/
def deleteRows : Option S.Db :=
  if Refused db sel then none
  else some fun t => ((db t).delete fun i _ => goes db sel t i).update (fun _ _ => true)
    (release S (goes db sel) t)

variable {db sel} {db' : S.Db}

theorem deleteRows_erases (h : deleteRows db sel = some db') : Erases S (goes db sel) db db' := by
  unfold deleteRows at h
  split at h
  · cases h
  · cases h
    intro t i
    rw [Table.get?_update, Table.get?_delete]
    cases hr : (db t).get? i with
    | none => simp
    | some r => by_cases hg : goes db sel t i = true <;> simp [hg]

/-- No reference is left that leads nowhere. -/
theorem deleteRows_intact (h : deleteRows db sel = some db') (hdb : Intact db) : Intact db' := by
  have hnot : ¬ Refused db sel := by
    intro href
    rw [deleteRows, if_pos href] at h
    cases h
  have her := deleteRows_erases h
  intro t i r' hr' k hk p hp
  obtain ⟨hgone, r, hr, rfl⟩ := her.get?_some hr'
  -- the row that is referred to was there and is not taken
  suffices hparent : k.column r = some p ∧ goes db sel k.parent p = false by
    obtain ⟨r₁, hr₁⟩ := hdb t i r hr k hk p hparent.1
    exact ⟨_, her.kept hr₁ hparent.2⟩
  rcases List.mem_append.mp hk with hk' | hnull
  · rw [release_column hk'] at hp
    refine ⟨hp, ?_⟩
    by_contra hgo
    rcases List.mem_append.mp hk' with hcascade | hrestrict
    · have hdoomed := goes_iff.mpr <| Doomed.cascade hr hcascade hp
        (goes_iff.mp (eq_true_of_ne_false hgo))
      rw [hgone] at hdoomed
      cases hdoomed
    · refine hnot ⟨t, (i, r), Table.get?_eq_some.mp hr, k, hrestrict, ?_⟩
      simp [hp, eq_true_of_ne_false hgo]
  · have hk' : S.nulls t = some k := Option.mem_toList.mp hnull
    cases hp' : k.column r with
    | none =>
      rw [release_of_not fun k₁ hk₁ p₁ hp₁ => ?_, hp'] at hp
      · cases hp
      · obtain rfl : k = k₁ := Option.some.inj (hk'.symm.trans hk₁)
        rw [hp'] at hp₁
        cases hp₁
    | some p' =>
      by_cases hgo : goes db sel k.parent p' = true
      · rw [release_of_gone hk' hp' hgo, S.clear_null t k hk'] at hp
        cases hp
      · rw [release_of_not fun k₁ hk₁ p₁ hp₁ => ?_, hp'] at hp
        · obtain rfl := Option.some.inj hp
          exact ⟨rfl, eq_false_of_ne_true hgo⟩
        · obtain rfl : k = k₁ := Option.some.inj (hk'.symm.trans hk₁)
          obtain rfl : p' = p₁ := Option.some.inj (hp'.symm.trans hp₁)
          exact eq_false_of_ne_true hgo

end

/-! ## Several deletes -/

/-- `DELETE FROM table WHERE condition`; the condition does not read the `SET NULL` column. -/
structure Statement (S : Schema T) where
  table : T
  condition : Nat → S.Row table → Bool
  stable : ∀ i r, condition i (S.clear table r) = condition i r

theorem Statement.condition_release {st : Statement S} {gone : T → Nat → Bool} {i : Nat}
    {r : S.Row st.table} : st.condition i (release S gone st.table r) = st.condition i r := by
  unfold release
  split
  · exact st.stable i r
  · rfl

section
variable [DecidableEq T]

def Statement.selects (st : Statement S) (db : S.Db) (t : T) (i : Nat) : Bool :=
  t = st.table && ((db st.table).get? i).any (st.condition i)

/-- The rows that any of the statements selects. -/
def selected (db : S.Db) (l : List (Statement S)) (t : T) (i : Nat) : Bool :=
  l.any fun st => st.selects db t i

variable [Fintype T]

/-- The statements in turn, in one transaction. -/
def run (db : S.Db) : List (Statement S) → Option S.Db
  | [] => some db
  | st :: l => (deleteRows db (st.selects db)).bind (run · l)

variable {db db' db₁ : S.Db} {st : Statement S} {l : List (Statement S)} {t : T} {i : Nat}

omit [Fintype T] in
theorem Statement.selects_iff : st.selects db t i = true ↔ t = st.table ∧ ∃ r,
    (db st.table).get? i = some r ∧ st.condition i r = true := by
  simp only [selects, Bool.and_eq_true, decide_eq_true_eq, Option.any_eq_true]

omit [Fintype T] in
/-- What later statements take from what the first one left is what they take from the whole, apart
from what has gone already. -/
theorem goes_cons (h : Erases S (goes db (st.selects db)) db db₁) :
    (fun t i => goes db (st.selects db) t i || goes db₁ (selected db₁ l) t i) =
      goes db (selected db (st :: l)) := by
  funext t i
  rw [Bool.eq_iff_iff, Bool.or_eq_true, goes_iff, goes_iff, goes_iff]
  constructor
  · rintro (hfirst | hlater)
    · exact hfirst.mono fun t i hsel => List.any_eq_true.mpr ⟨st, List.mem_cons_self, hsel⟩
    · induction hlater with
      | @selected t i hsel =>
        obtain ⟨st', hst', hsel⟩ := List.any_eq_true.mp hsel
        obtain ⟨rfl, r₁, hr₁, hcond⟩ := Statement.selects_iff.mp hsel
        obtain ⟨-, r, hr, rfl⟩ := h.get?_some hr₁
        rw [Statement.condition_release] at hcond
        exact .selected (List.any_eq_true.mpr
          ⟨st', List.mem_cons_of_mem _ hst', Statement.selects_iff.mpr ⟨rfl, r, hr, hcond⟩⟩)
      | @cascade t i r₁ k p hr₁ hk hp _ ih =>
        obtain ⟨-, r, hr, rfl⟩ := h.get?_some hr₁
        rw [release_column (List.mem_append_left _ hk)] at hp
        exact .cascade hr hk hp ih
  · intro hany
    induction hany with
    | @selected t i hsel =>
      obtain ⟨st', hst', hrow⟩ := List.any_eq_true.mp hsel
      rcases List.mem_cons.mp hst' with rfl | hst'
      · exact .inl (.selected hrow)
      by_cases hgone : goes db (st.selects db) t i = true
      · exact .inl (goes_iff.mp hgone)
      obtain ⟨rfl, r, hr, hcond⟩ := Statement.selects_iff.mp hrow
      refine .inr (.selected (List.any_eq_true.mpr ⟨st', hst', Statement.selects_iff.mpr ⟨rfl, ?_⟩⟩))
      exact ⟨_, h.kept hr (eq_false_of_ne_true hgone), by rwa [Statement.condition_release]⟩
    | @cascade t i r k p hr hk hp _ ih =>
      rcases ih with hfirst | hlater
      · exact .inl (.cascade hr hk hp hfirst)
      by_cases hgone : goes db (st.selects db) t i = true
      · exact .inl (goes_iff.mp hgone)
      refine .inr (.cascade (h.kept hr (eq_false_of_ne_true hgone)) hk ?_ hlater)
      rwa [release_column (List.mem_append_left _ hk)]

/-- A sequence of deletes takes the rows that one of them selects, and what cascades from these. -/
theorem run_erases (h : run db l = some db') : Erases S (goes db (selected db l)) db db' := by
  induction l generalizing db with
  | nil =>
    obtain rfl : db = db' := Option.some.inj h
    have hnone : goes db (selected db ([] : List (Statement S))) = fun _ _ => false := by
      funext t i
      refine eq_false_of_ne_true fun hgo => ?_
      induction goes_iff.mp hgo with
      | selected hsel => cases hsel
      | cascade _ _ _ hd ih => exact ih (goes_iff.mpr hd)
    rw [hnone]
    exact .refl
  | cons st l ih =>
    obtain ⟨db₁, hfirst, hrest⟩ := Option.bind_eq_some_iff.mp h
    have her := deleteRows_erases hfirst
    rw [← goes_cons her]
    exact her.trans (ih hrest)

theorem run_intact (h : run db l = some db') (hdb : Intact db) : Intact db' := by
  induction l generalizing db with
  | nil =>
    cases h
    exact hdb
  | cons st l ih =>
    obtain ⟨db₁, hfirst, hrest⟩ := Option.bind_eq_some_iff.mp h
    exact ih hrest (deleteRows_intact hfirst hdb)

end

end TunnelWeaver.Relational
