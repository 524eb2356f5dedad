import TunnelWeaver.Server.Directory

/-! Hostnames and the names they are made of, while services are registered and machines renamed: a
`register_service` call builds the hostname from names it read before, and writes it in several
statements that anything may come between. -/

namespace TunnelWeaver.Server

open Automaton
open Mux (KeyId)
open Proto (toAsciiLowercase isValidServiceName)

/-! ## Texts -/

theorem toAsciiLowercase_append (a b : String) :
    toAsciiLowercase (a ++ b) = toAsciiLowercase a ++ toAsciiLowercase b := by
  apply String.toList_inj.mp
  simp [toAsciiLowercase, String.toList_map]

theorem toLower_toLower (c : Char) : c.toLower.toLower = c.toLower := by
  by_cases h : c.val ≥ 'A'.val ∧ c.val ≤ 'Z'.val
  · have hlow : c.toLower.val = c.val + ('a'.val - 'A'.val) := by
      rw [Char.toLower, dif_pos h]
    rw [Char.toLower, dif_neg]
    rw [hlow]
    intro hup
    have h₁ := UInt32.le_iff_toNat_le.mp h.1
    have h₂ := UInt32.le_iff_toNat_le.mp h.2
    have h₃ := UInt32.le_iff_toNat_le.mp hup.2
    rw [UInt32.toNat_add] at h₃
    simp at h₁ h₂ h₃
    omega
  · have hsame : c.toLower = c := by rw [Char.toLower, dif_neg h]
    rw [hsame, hsame]

@[simp] theorem toAsciiLowercase_idem (s : String) :
    toAsciiLowercase (toAsciiLowercase s) = toAsciiLowercase s := by
  apply String.toList_inj.mp
  simp only [toAsciiLowercase, String.toList_map, List.map_map]
  exact List.map_congr_left fun c _ => toLower_toLower c

@[simp] theorem toAsciiLowercase_flatHostname (person machine service root : String) :
    toAsciiLowercase (flatHostname person machine service root) =
      flatHostname person machine service root := by
  have hdash : toAsciiLowercase "-" = "-" := by decide +kernel
  have hdot : toAsciiLowercase "." = "." := by decide +kernel
  simp only [flatHostname, toAsciiLowercase_append, toAsciiLowercase_idem, hdash, hdot]

theorem stripPrefix_append (front rest : String) : stripPrefix front (front ++ rest) = some rest := by
  have hlist (l l' : List Char) : l.isPrefixOf? (l ++ l') = some l' := by
    induction l with
    | nil => simp [List.isPrefixOf?]
    | cons c l ih => simp [List.isPrefixOf?, ih]
  rw [stripPrefix, String.toList_append, hlist, Option.map_some, String.ofList_toList]

/-- The part of a hostname that a rename keeps. -/
def hostTail (service root : String) : String :=
  toAsciiLowercase service ++ "." ++ toAsciiLowercase root

theorem flatHostname_eq {person machine : String} (hp : toAsciiLowercase person = person)
    (hm : toAsciiLowercase machine = machine) (service root : String) :
    flatHostname person machine service root =
      person ++ "-" ++ machine ++ "-" ++ hostTail service root := by
  simp only [flatHostname, hp, hm, hostTail, String.append_assoc]

namespace Directory

variable {d d' : Directory} {root : String}

/-! ## What every operation keeps -/

/-- Ids are not handed out twice, services do not change and hostnames are not changed in place. -/
structure Keeps (d d' : Directory) : Prop where
  services : d.services.next ≤ d'.services.next
  service : ∀ i s, i < d.services.next → d'.services.get? i = some s → d.services.get? i = some s
  domains : d.domains.next ≤ d'.domains.next
  domain : ∀ i row', i < d.domains.next → d'.domains.get? i = some row' →
    ∃ row, d.domains.get? i = some row ∧ row'.name = row.name

/-- Names are in lower case, references lead somewhere, no hostname stands twice, and a hostname
that a service owns is made of the current names. -/
structure Proper (root : String) (d : Directory) : Prop where
  person : ∀ i p, d.persons.get? i = some p → toAsciiLowercase p.name = p.name
  machine : ∀ i m, d.machines.get? i = some m → toAsciiLowercase m.name = m.name ∧
    (d.persons.get? m.personId).isSome
  service : ∀ i s, d.services.get? i = some s → (d.machines.get? s.machineId).isSome
  unique : ∀ i j row row', d.domains.get? i = some row → d.domains.get? j = some row' →
    row.name = row'.name → i = j
  linked : ∀ i row s, d.domains.get? i = some row → row.serviceId = some s →
    d.hostOf root s = some row.name

theorem Keeps.refl : Keeps d d :=
  ⟨Nat.le_refl _, fun _ _ _ h => h, Nat.le_refl _, fun _ row _ h => ⟨row, h, rfl⟩⟩

/-- Neither the services nor the hostnames are touched. -/
theorem Keeps.of_eq (hs : d'.services = d.services) (hd : d'.domains = d.domains) : Keeps d d' := by
  refine ⟨by rw [hs], fun _ _ _ h => by rwa [hs] at h, by rw [hd], fun _ row _ h => ?_⟩
  rw [hd] at h
  exact ⟨row, h, rfl⟩

theorem hostOf_eq_some {service : Nat} {host : String} : d.hostOf root service = some host ↔
    ∃ s m p, d.services.get? service = some s ∧ d.machines.get? s.machineId = some m ∧
      d.persons.get? m.personId = some p ∧ flatHostname p.name m.name s.name root = host := by
  simp [hostOf, Option.bind_eq_some_iff]

/-- The hostname of a service stays, while its service, its machine's name and its person do. -/
theorem hostOf_mono {service : Nat} {host : String} (h : d.hostOf root service = some host)
    (hs : ∀ s, d.services.get? service = some s → d'.services.get? service = some s)
    (hm : ∀ i m, d.machines.get? i = some m → (∃ s, d.services.get? service = some s ∧
      s.machineId = i) → ∃ m', d'.machines.get? i = some m' ∧ m'.name = m.name ∧
        m'.personId = m.personId)
    (hp : ∀ i p, d.persons.get? i = some p → d'.persons.get? i = some p) :
    d'.hostOf root service = some host := by
  obtain ⟨s, m, p, hgets, hgetm, hgetp, rfl⟩ := hostOf_eq_some.mp h
  obtain ⟨m', hgetm', hname, hperson⟩ := hm _ m hgetm ⟨s, hgets, rfl⟩
  refine hostOf_eq_some.mpr ⟨s, m', p, hs s hgets, hgetm', ?_, by rw [hname]⟩
  rw [hperson]
  exact hp _ p hgetp

/-- The tables of names grow: what has been there stays as it is. -/
theorem Proper.of_grows (h : d.Proper root) (hs : d'.services = d.services)
    (hd : d'.domains = d.domains)
    (hp : ∀ i p, d.persons.get? i = some p → d'.persons.get? i = some p)
    (hp' : ∀ i p, d'.persons.get? i = some p → toAsciiLowercase p.name = p.name)
    (hm : ∀ i m, d.machines.get? i = some m → ∃ m', d'.machines.get? i = some m' ∧
      m'.name = m.name ∧ m'.personId = m.personId)
    (hm' : ∀ i m, d'.machines.get? i = some m → toAsciiLowercase m.name = m.name ∧
      (d'.persons.get? m.personId).isSome) : d'.Proper root where
  person := hp'
  machine := hm'
  service := by
    intro i s hget
    rw [hs] at hget
    obtain ⟨m, hgetm⟩ := Option.isSome_iff_exists.mp (h.service i s hget)
    obtain ⟨m', hgetm', -⟩ := hm _ m hgetm
    exact Option.isSome_iff_exists.mpr ⟨m', hgetm'⟩
  unique := by
    rw [hd]
    exact h.unique
  linked := by
    intro i row s hrow hservice
    rw [hd] at hrow
    exact hostOf_mono (h.linked i row s hrow hservice) (fun s hget => by rwa [hs])
      (fun i m hget _ => hm i m hget) hp

theorem createPerson_proper {accountId : Nat} {name : String} (h : d.Proper root)
    (hok : d.createPerson accountId name = .ok d') : d'.Proper root ∧ Keeps d d' := by
  unfold createPerson at hok
  dsimp only at hok
  split_ifs at hok
  cases hok
  have hold (i : Nat) (p : PersonRow) (hp : d.persons.get? i = some p) :
      (d.persons.insert { accountId, name := toAsciiLowercase name }).get? i = some p := by
    rw [Table.get?_insert, if_neg (Nat.ne_of_lt (Table.lt_next hp)), hp]
  refine ⟨h.of_grows rfl rfl hold ?_ (fun i m hm => ⟨m, hm, rfl, rfl⟩) ?_, .of_eq rfl rfl⟩
  · intro i p hp
    rw [Table.get?_insert] at hp
    split at hp
    · cases hp
      exact toAsciiLowercase_idem name
    · exact h.person i p hp
  · intro i m hm
    obtain ⟨hlower, hperson⟩ := h.machine i m hm
    obtain ⟨p, hp⟩ := Option.isSome_iff_exists.mp hperson
    exact ⟨hlower, Option.isSome_iff_exists.mpr ⟨p, hold _ p hp⟩⟩

theorem createMachine_proper {person : Nat} {name : String} {key : KeyId} {now : Int}
    (h : d.Proper root) (hok : d.createMachine person name key now = .ok d') :
    d'.Proper root ∧ Keeps d d' := by
  unfold createMachine at hok
  dsimp only at hok
  split_ifs at hok with hvalid hfree
  cases hok
  have hperson : (d.persons.get? person).isSome := by
    rw [Bool.or_eq_true, not_or] at hfree
    simpa [Option.isSome_iff_ne_none] using hfree.1
  refine ⟨h.of_grows rfl rfl (fun i p hp => hp) h.person ?_ ?_, .of_eq rfl rfl⟩
  · intro i m hm
    refine ⟨m, ?_, rfl, rfl⟩
    exact Table.get?_insert.trans ((if_neg (Nat.ne_of_lt (Table.lt_next hm))).trans hm)
  · intro i m hm
    change (d.machines.insert _).get? i = some m at hm
    rw [Table.get?_insert] at hm
    split at hm
    · cases hm
      exact ⟨toAsciiLowercase_idem name, hperson⟩
    · exact h.machine i m hm

theorem replaceMachineKey_proper {machineId : Nat} {key : KeyId} {now : Int} (h : d.Proper root)
    (hok : d.replaceMachineKey machineId key now = .ok d') : d'.Proper root ∧ Keeps d d' := by
  unfold replaceMachineKey at hok
  split at hok
  · cases hok
  rename_i current hcurrent
  split_ifs at hok
  cases hok
  have hget (i : Nat) : (d.machines.set machineId { current with keyId := key }).get? i =
      if i = machineId then some { current with keyId := key } else d.machines.get? i := by
    rw [Table.get?_set]
    split
    · rename_i hi
      rw [hi, hcurrent, Option.map_some]
    · rfl
  refine ⟨h.of_grows rfl rfl (fun i p hp => hp) h.person ?_ ?_, .of_eq rfl rfl⟩
  · intro i m hm
    by_cases hi : i = machineId
    · rw [hi, hcurrent] at hm
      cases hm
      exact ⟨_, (hget i).trans (if_pos hi), rfl, rfl⟩
    · exact ⟨m, ((hget i).trans (if_neg hi)).trans hm, rfl, rfl⟩
  · intro i m hm
    have hm' := (hget i).symm.trans hm
    split at hm'
    · cases hm'
      exact h.machine machineId current hcurrent
    · exact h.machine i m hm'

/-- Deleting the services of the machines that are deleted with them. -/
theorem revokeMachine_proper {key : KeyId} {now : Int} (h : d.Proper root) :
    (d.revokeMachine key now).Proper root ∧ Keeps d (d.revokeMachine key now) := by
  unfold revokeMachine
  split
  · exact ⟨h, .refl⟩
  rename_i id m hfound
  have hmachine {i : Nat} {m : MachineRow} : (d.machines.delete fun i _ => i = id).get? i = some m ↔
      d.machines.get? i = some m ∧ i ≠ id := by
    rw [Table.get?_delete, Option.filter_eq_some_iff]
    simp
  have hservice {i : Nat} {s : ServiceRow} :
      (d.services.delete fun _ service => service.machineId = id).get? i = some s ↔
        d.services.get? i = some s ∧ s.machineId ≠ id := by
    rw [Table.get?_delete, Option.filter_eq_some_iff]
    simp
  have hdomain {i : Nat} {row' : DomainRow} (hrow' : ((d.deleteServices (· = id)).domains).get? i =
      some row') : ∃ row, d.domains.get? i = some row ∧ row'.name = row.name ∧
        ∀ s, row'.serviceId = some s → row.serviceId = some s ∧
          ∀ service, d.services.get? s = some service → service.machineId ≠ id := by
    rw [deleteServices, Table.get?_update] at hrow'
    obtain ⟨row, hrow, rfl⟩ := Option.map_eq_some_iff.mp hrow'
    refine ⟨row, hrow, by split <;> rfl, fun s hs => ?_⟩
    split at hs
    · cases hs
    · rename_i hgone
      refine ⟨hs, fun service hget hid => hgone ?_⟩
      rw [hs, Option.any_some, hget, Option.any_some]
      exact decide_eq_true hid
  constructor
  · constructor
    case person => exact h.person
    case machine =>
      intro i m hm
      exact h.machine i m (hmachine.mp hm).1
    case service =>
      intro i s hs
      obtain ⟨hget, hne⟩ := hservice.mp hs
      obtain ⟨m, hm⟩ := Option.isSome_iff_exists.mp (h.service i s hget)
      exact Option.isSome_iff_exists.mpr ⟨m, hmachine.mpr ⟨hm, hne⟩⟩
    case unique =>
      intro i j row row' hi hj hname
      obtain ⟨row₁, hrow₁, hname₁, -⟩ := hdomain hi
      obtain ⟨row₂, hrow₂, hname₂, -⟩ := hdomain hj
      exact h.unique i j row₁ row₂ hrow₁ hrow₂ (by rw [← hname₁, ← hname₂, hname])
    case linked =>
      intro i row' s hrow' hs
      obtain ⟨row, hrow, hname, hlink⟩ := hdomain hrow'
      obtain ⟨hs', hne⟩ := hlink s hs
      rw [hname]
      refine hostOf_mono (h.linked i row s hrow hs') (fun service hget => ?_) ?_ fun _ _ hp => hp
      · exact hservice.mpr ⟨hget, hne service hget⟩
      · rintro j m hm ⟨service, hget, rfl⟩
        exact ⟨m, hmachine.mpr ⟨hm, hne service hget⟩, rfl, rfl⟩
  · refine ⟨Nat.le_refl _, fun i s _ hs => (hservice.mp hs).1, Nat.le_refl _, ?_⟩
    intro i row' _ hrow'
    obtain ⟨row, hrow, hname, -⟩ := hdomain hrow'
    exact ⟨row, hrow, hname⟩

/-! ## Renaming -/

/-- A table of hostnames in which every owned one is as `R` says. -/
def LinkedBy (R : Nat → String → Prop) (t : Table DomainRow) : Prop :=
  ∀ i row s, t.get? i = some row → row.serviceId = some s → R s row.name

/-- No hostname stands twice, and none is changed in place. -/
structure Renames (t t' : Table DomainRow) : Prop where
  next : t.next ≤ t'.next
  names : ∀ i row', i < t.next → t'.get? i = some row' → ∃ row, t.get? i = some row ∧
    row'.name = row.name
  unique : (∀ i j row row', t.get? i = some row → t.get? j = some row' →
    row.name = row'.name → i = j) → ∀ i j row row', t'.get? i = some row →
    t'.get? j = some row' → row.name = row'.name → i = j

theorem Renames.refl (t : Table DomainRow) : Renames t t :=
  ⟨Nat.le_refl _, fun _ row _ h => ⟨row, h, rfl⟩, fun h => h⟩

theorem Renames.trans {t₁ t₂ t₃ : Table DomainRow} (h : Renames t₁ t₂) (h' : Renames t₂ t₃) :
    Renames t₁ t₃ where
  next := Nat.le_trans h.next h'.next
  names := by
    intro i row₃ hi hrow₃
    obtain ⟨row₂, hrow₂, hname₂⟩ := h'.names i row₃ (Nat.lt_of_lt_of_le hi h.next) hrow₃
    obtain ⟨row₁, hrow₁, hname₁⟩ := h.names i row₂ hi hrow₂
    exact ⟨row₁, hrow₁, hname₂.trans hname₁⟩
  unique := fun hu => h'.unique (h.unique hu)

/-- An update that leaves the names alone. -/
theorem Renames.update {t : Table DomainRow} {p : Nat → DomainRow → Bool}
    {f : DomainRow → DomainRow} (hf : ∀ row, (f row).name = row.name) :
    Renames t (t.update p f) := by
  have hrow {i : Nat} {row' : DomainRow} (h : (t.update p f).get? i = some row') :
      ∃ row, t.get? i = some row ∧ row'.name = row.name := by
    rw [Table.get?_update] at h
    obtain ⟨row, hrow, rfl⟩ := Option.map_eq_some_iff.mp h
    refine ⟨row, hrow, ?_⟩
    split
    · exact hf row
    · rfl
  refine ⟨Nat.le_refl _, fun i row' _ h => hrow h, fun hu i j row row' hi hj hname => ?_⟩
  obtain ⟨row₁, hrow₁, hname₁⟩ := hrow hi
  obtain ⟨row₂, hrow₂, hname₂⟩ := hrow hj
  exact hu i j row₁ row₂ hrow₁ hrow₂ (by rw [← hname₁, ← hname₂, hname])

theorem Renames.insert {t : Table DomainRow} {row : DomainRow}
    (hnew : (t.find? fun _ row' => row'.name = row.name) = none) : Renames t (t.insert row) := by
  have hfresh {i : Nat} {row' : DomainRow} (h : t.get? i = some row') : row'.name ≠ row.name := by
    have hnot := (Table.find?_eq_none.mp hnew) h
    simpa using hnot
  refine ⟨Nat.le_succ _, fun i row' hi h => ?_, fun hu i j row₁ row₂ hi hj hname => ?_⟩
  · rw [Table.get?_insert, if_neg (Nat.ne_of_lt hi)] at h
    exact ⟨row', h, rfl⟩
  · rw [Table.get?_insert] at hi hj
    split at hi
    · rename_i hnexti
      cases hi
      split at hj
      · rename_i hnextj
        rw [hnexti, hnextj]
      · exact absurd hname.symm (hfresh hj)
    · split at hj
      · cases hj
        exact absurd hname (hfresh hi)
      · exact hu i j row₁ row₂ hi hj hname

theorem Renames.delete {t : Table DomainRow} {p : Nat → DomainRow → Bool} :
    Renames t (t.delete p) := by
  have hrow {i : Nat} {row : DomainRow} (h : (t.delete p).get? i = some row) :
      t.get? i = some row := by
    rw [Table.get?_delete] at h
    exact (Option.filter_eq_some_iff.mp h).1
  exact ⟨Nat.le_refl _, fun i row _ h => ⟨row, hrow h, rfl⟩,
    fun hu i j row row' hi hj hname => hu i j row row' (hrow hi) (hrow hj) hname⟩

section
variable {oldFront newFront host : String} {service : Nat} {t : Table DomainRow}
  {R : Nat → String → Prop}

theorem renameRow_renames (e : Nat × DomainRow) :
    Renames t (renameRow oldFront newFront service t e) := by
  unfold renameRow
  split
  · exact .refl t
  · dsimp only
    split
    · exact .refl t
    · split
      · refine (Renames.update (f := fun row => { row with
          lastActiveAt := e.2.lastActiveAt, serviceId := some service }) fun _ => rfl).trans .delete
      · rename_i hnone
        exact (Renames.insert hnone).trans .delete

theorem renameService_renames : Renames t (renameService oldFront newFront t service) :=
  List.foldlRecOn (motive := Renames t) _ _ (.refl t)
    fun _ h e _ => h.trans (renameRow_renames e)

/-- One row is moved: what the service still owns under another name is in the rest of the list. -/
theorem renameRow_linked {e : Nat × DomainRow} {l : List (Nat × DomainRow)} {rest : String}
    (hstrip : stripPrefix oldFront e.2.name = some rest) (hhost : newFront ++ rest = host)
    (hname : ∀ row, t.get? e.1 = some row → row.name = e.2.name)
    (hothers : ∀ i row s, t.get? i = some row → row.serviceId = some s → s ≠ service → R s row.name)
    (hown : ∀ i row, t.get? i = some row → row.serviceId = some service →
      row.name = host ∨ i ∈ (e :: l).map (·.1)) :
    (∀ i row s, (renameRow oldFront newFront service t e).get? i = some row →
      row.serviceId = some s → s ≠ service → R s row.name) ∧
    ∀ i row, (renameRow oldFront newFront service t e).get? i = some row →
      row.serviceId = some service → row.name = host ∨ i ∈ l.map (·.1) := by
  unfold renameRow
  rw [hstrip]
  dsimp only
  rw [hhost]
  split
  · rename_i hsame
    refine ⟨hothers, fun i row hrow hs => ?_⟩
    rcases hown i row hrow hs with hdone | hmem
    · exact .inl hdone
    · rw [List.map_cons, List.mem_cons] at hmem
      rcases hmem with rfl | hmem
      · exact .inl ((hname row hrow).trans hsame.symm)
      · exact .inr hmem
  · -- the row that carries the new name now, and then the old one
    have hmoved (moved : Table DomainRow) (hrows : ∀ i row, moved.get? i = some row →
        (row.name = host ∧ row.serviceId = some service) ∨ t.get? i = some row) :
        (∀ i row s, (moved.delete fun i _ => i = e.1).get? i = some row →
          row.serviceId = some s → s ≠ service → R s row.name) ∧
        ∀ i row, (moved.delete fun i _ => i = e.1).get? i = some row →
          row.serviceId = some service → row.name = host ∨ i ∈ l.map (·.1) := by
      have hkept {i : Nat} {row : DomainRow}
          (hrow : (moved.delete fun i _ => i = e.1).get? i = some row) :
          moved.get? i = some row ∧ i ≠ e.1 := by
        rw [Table.get?_delete, Option.filter_eq_some_iff] at hrow
        simpa using hrow
      constructor
      · intro i row s hrow hs hne
        rcases hrows i row (hkept hrow).1 with ⟨-, hnew⟩ | hold
        · rw [hnew] at hs
          cases hs
          exact absurd rfl hne
        · exact hothers i row s hold hs hne
      · intro i row hrow hs
        obtain ⟨hget, hne⟩ := hkept hrow
        rcases hrows i row hget with ⟨hdone, -⟩ | hold
        · exact .inl hdone
        · rcases hown i row hold hs with hdone | hmem
          · exact .inl hdone
          · rw [List.map_cons, List.mem_cons] at hmem
            exact .inr (hmem.resolve_left hne)
    split
    · rename_i id row₀ hfound
      obtain ⟨hget, hrow₀⟩ := Table.find?_some hfound
      refine hmoved _ fun i row hrow => ?_
      rw [Table.get?_update] at hrow
      obtain ⟨row', hrow', rfl⟩ := Option.map_eq_some_iff.mp hrow
      by_cases hi : i = id
      · subst hi
        rw [Option.some.inj (hrow'.symm.trans hget)]
        rw [if_pos (decide_eq_true rfl)]
        exact .inl ⟨of_decide_eq_true hrow₀, rfl⟩
      · rw [if_neg (by simpa using hi)]
        exact .inr hrow'
    · refine hmoved _ fun i row hrow => ?_
      rw [Table.get?_insert] at hrow
      split at hrow
      · cases hrow
        exact .inl ⟨rfl, rfl⟩
      · exact .inr hrow

/-- The hostnames of one service are moved. -/
theorem renameService_linked (hR : LinkedBy R t)
    (hstrip : ∀ name, R service name →
      ∃ rest, stripPrefix oldFront name = some rest ∧ newFront ++ rest = host) :
    LinkedBy (fun s name => if s = service then name = host else R s name)
      (renameService oldFront newFront t service) := by
  have hloop : ∀ (l : List (Nat × DomainRow)) (t' : Table DomainRow),
      (∀ e ∈ l, e ∈ domainsOf t service) → Renames t t' →
      (∀ i row s, t'.get? i = some row → row.serviceId = some s → s ≠ service → R s row.name) →
      (∀ i row, t'.get? i = some row → row.serviceId = some service →
        row.name = host ∨ i ∈ l.map (·.1)) →
      LinkedBy (fun s name => if s = service then name = host else R s name)
        (l.foldl (renameRow oldFront newFront service) t') := by
    intro l
    induction l with
    | nil =>
      intro t' _ _ hothers hown i row s hrow hs
      split
      · rename_i hsame
        exact (hown i row hrow (hsame ▸ hs)).resolve_right List.not_mem_nil
      · rename_i hne
        exact hothers i row s hrow hs hne
    | cons e l ih =>
      intro t' hmem hren hothers hown
      obtain ⟨he, hl⟩ := List.forall_mem_cons.mp hmem
      obtain ⟨herow, hes⟩ := List.mem_filter.mp he
      have hget := Table.get?_eq_some.mpr herow
      obtain ⟨rest, hrest, hhost⟩ := hstrip _ (hR e.1 e.2 service hget (of_decide_eq_true hes))
      have hname (row : DomainRow) (hrow : t'.get? e.1 = some row) : row.name = e.2.name := by
        obtain ⟨row₀, hrow₀, hname⟩ := hren.names e.1 row (Table.lt_next hget) hrow
        rw [hname, Option.some.inj (hrow₀.symm.trans hget)]
      obtain ⟨hothers', hown'⟩ := renameRow_linked hrest hhost hname hothers hown
      exact ih _ hl (hren.trans (renameRow_renames e)) hothers' hown'
  refine hloop _ t (fun e he => he) (.refl t) (fun i row s hrow hs _ => hR i row s hrow hs) ?_
  intro i row hrow hs
  refine .inr (List.mem_map_of_mem (f := (·.1)) (a := (i, row)) ?_)
  exact List.mem_filter.mpr ⟨Table.get?_eq_some.mp hrow, decide_eq_true hs⟩

/-- The hostnames of every service of a machine are moved. -/
theorem renameServices_linked {target : Nat → String} {l : List Nat} (hnodup : l.Nodup)
    (hR : LinkedBy R t)
    (hstrip : ∀ service ∈ l, ∀ name, R service name →
      ∃ rest, stripPrefix oldFront name = some rest ∧ newFront ++ rest = target service) :
    LinkedBy (fun s name => if s ∈ l then name = target s else R s name)
      (l.foldl (renameService oldFront newFront) t) := by
  induction l generalizing t R with
  | nil => exact fun i row s hrow hs => by simpa using hR i row s hrow hs
  | cons service l ih =>
    obtain ⟨hnew, hnodup⟩ := List.nodup_cons.mp hnodup
    obtain ⟨hfirst, hrest⟩ := List.forall_mem_cons.mp hstrip
    have hafter := renameService_linked hR hfirst
    have hdone := ih hnodup hafter fun s hs name hname => by
      have hne : s ≠ service := fun heq => hnew (heq ▸ hs)
      simp only [if_neg hne] at hname
      exact hrest s hs name hname
    intro i row s hrow hs
    have hcase := hdone i row s hrow hs
    by_cases hmem : s ∈ l
    · simp only [if_pos hmem] at hcase
      rw [if_pos (List.mem_cons_of_mem _ hmem)]
      exact hcase
    · simp only [if_neg hmem] at hcase
      by_cases hsame : s = service
      · rw [if_pos hsame] at hcase
        rw [if_pos (hsame ▸ List.mem_cons_self), hcase, hsame]
      · rw [if_neg hsame] at hcase
        rw [if_neg (by simp [hsame, hmem])]
        exact hcase

theorem renameServices_renames (l : List Nat) :
    Renames t (l.foldl (renameService oldFront newFront) t) :=
  List.foldlRecOn (motive := Renames t) _ _ (.refl t) fun _ h _ _ => h.trans renameService_renames

end

theorem mem_servicesOf {machineId service : Nat} : service ∈ d.servicesOf machineId ↔
    ∃ s, d.services.get? service = some s ∧ s.machineId = machineId := by
  rw [servicesOf, List.mem_map]
  constructor
  · rintro ⟨e, he, rfl⟩
    obtain ⟨hrow, hmachine⟩ := List.mem_filter.mp he
    exact ⟨e.2, Table.get?_eq_some.mpr hrow, of_decide_eq_true hmachine⟩
  · rintro ⟨s, hget, hmachine⟩
    exact ⟨(service, s), List.mem_filter.mpr ⟨Table.get?_eq_some.mp hget, decide_eq_true hmachine⟩,
      rfl⟩

theorem servicesOf_nodup (machineId : Nat) : (d.servicesOf machineId).Nodup := by
  have hsorted := d.services.sorted.filter fun e => decide (e.2.machineId = machineId)
  exact List.pairwise_map.mpr (hsorted.imp fun hlt => Nat.ne_of_lt hlt)

/-- A rename moves every hostname of the machine. -/
theorem renameMachine_proper {machineId : Nat} {newName : String} {updated : MachineRow}
    (h : d.Proper root) (hok : d.renameMachine machineId newName = .ok (d', updated)) :
    d'.Proper root ∧ Keeps d d' := by
  unfold renameMachine at hok
  dsimp only at hok
  split at hok
  · cases hok
  split at hok
  · cases hok
  rename_i current hcurrent
  split at hok
  · cases hok
    exact ⟨h, .refl⟩
  split at hok
  · cases hok
  rename_i person hperson
  split at hok
  · cases hok
  cases hok
  have hlowerp := h.person _ person hperson
  have hlowerm := (h.machine _ current hcurrent).1
  have hlowern := toAsciiLowercase_idem newName
  generalize toAsciiLowercase newName = newLower at hlowern
  generalize hold : person.name ++ "-" ++ current.name ++ "-" = oldFront
  generalize hnew : person.name ++ "-" ++ newLower ++ "-" = newFront
  have hmoved : LinkedBy (fun s name => if s ∈ d.servicesOf machineId
      then name = newFront ++ hostTail ((d.services.get? s).elim "" (·.name)) root
      else d.hostOf root s = some name)
      ((d.servicesOf machineId).foldl (renameService oldFront newFront) d.domains) := by
    refine renameServices_linked (R := fun s name => d.hostOf root s = some name)
      (servicesOf_nodup machineId) h.linked ?_
    · intro service hservice name hname
      obtain ⟨s, m, p, hgets, hgetm, hgetp, rfl⟩ := hostOf_eq_some.mp hname
      obtain ⟨s', hgets', hmachine⟩ := mem_servicesOf.mp hservice
      obtain rfl := Option.some.inj (hgets.symm.trans hgets')
      rw [hmachine] at hgetm
      obtain rfl := Option.some.inj (hgetm.symm.trans hcurrent)
      obtain rfl := Option.some.inj (hgetp.symm.trans hperson)
      refine ⟨hostTail s.name root, ?_, by rw [hgets, Option.elim_some]⟩
      rw [flatHostname_eq hlowerp hlowerm, hold]
      exact stripPrefix_append ..
  have hren : Renames d.domains
      ((d.servicesOf machineId).foldl (renameService oldFront newFront) d.domains) :=
    renameServices_renames _
  generalize (d.servicesOf machineId).foldl (renameService oldFront newFront) d.domains = domains
    at hmoved hren
  have hmachine (i : Nat) : (d.machines.set machineId { current with name := newLower }).get? i =
      if i = machineId then some { current with name := newLower } else d.machines.get? i := by
    rw [Table.get?_set]
    split
    · rename_i hi
      rw [hi, hcurrent, Option.map_some]
    · rfl
  refine ⟨?_, Nat.le_refl _, fun _ _ _ hs => hs, hren.next, hren.names⟩
  constructor
  case person => exact h.person
  case machine =>
    intro i m hm
    have hm' := (hmachine i).symm.trans hm
    split at hm'
    · cases hm'
      exact ⟨hlowern, (h.machine machineId current hcurrent).2⟩
    · exact h.machine i m hm'
  case service =>
    intro i s hs
    obtain ⟨m, hm⟩ := Option.isSome_iff_exists.mp (h.service i s hs)
    change ((d.machines.set machineId _).get? s.machineId).isSome
    rw [hmachine]
    split
    · rfl
    · exact Option.isSome_iff_exists.mpr ⟨m, hm⟩
  case unique => exact hren.unique h.unique
  case linked =>
    intro i row s hrow hs
    have hcase := hmoved i row s hrow hs
    by_cases hmem : s ∈ d.servicesOf machineId
    · simp only [if_pos hmem] at hcase
      obtain ⟨service, hget, hid⟩ := mem_servicesOf.mp hmem
      refine hostOf_eq_some.mpr ⟨service, { current with name := newLower }, person, hget, ?_,
        hperson, ?_⟩
      · exact (hmachine _).trans (if_pos hid)
      · rw [flatHostname_eq hlowerp hlowern, hnew, hcase, hget, Option.elim_some]
    · simp only [if_neg hmem] at hcase
      refine hostOf_mono hcase (fun _ hget => hget) ?_ fun _ _ hp => hp
      rintro j m hm ⟨service, hget, rfl⟩
      refine ⟨m, (hmachine _).trans ((if_neg fun hid => ?_).trans hm), rfl, rfl⟩
      exact hmem (mem_servicesOf.mpr ⟨service, hget, hid⟩)

/-! ## The statements of a registration -/

theorem insertService_proper {machineId service : Nat} {name : String} (h : d.Proper root)
    (hok : d.insertService machineId name = .ok (d', service)) :
    d'.Proper root ∧ Keeps d d' ∧ service = d.services.next ∧
      d'.services.get? service = some { machineId, name } ∧ service < d'.services.next := by
  unfold insertService at hok
  split_ifs at hok with hrefused
  cases hok
  have hmachine : (d.machines.get? machineId).isSome := by
    rw [Bool.or_eq_true, not_or] at hrefused
    simpa [Option.isSome_iff_ne_none] using hrefused.1
  have hold (i : Nat) (s : ServiceRow) (hs : d.services.get? i = some s) :
      (d.services.insert { machineId, name }).get? i = some s := by
    rw [Table.get?_insert, if_neg (Nat.ne_of_lt (Table.lt_next hs)), hs]
  refine ⟨?_, ⟨Nat.le_succ _, fun i s hi hs => ?_, Nat.le_refl _, fun i row _ hrow => ⟨row, hrow, rfl⟩⟩,
    rfl, Table.get?_insert.trans (if_pos rfl), Nat.lt_succ_self _⟩
  · refine { h with
      service := fun i s hs => ?_
      linked := fun i row s hrow hs => ?_ }
    · rw [Table.get?_insert] at hs
      split at hs
      · cases hs
        exact hmachine
      · exact h.service i s hs
    · exact hostOf_mono (h.linked i row s hrow hs) (hold s) (fun j m hm _ => ⟨m, hm, rfl, rfl⟩)
        fun _ _ hp => hp
  · rw [Table.get?_insert, if_neg (Nat.ne_of_lt hi)] at hs
    exact hs

/-- Hostnames whose owners are as they should be. -/
theorem Proper.of_domains {domains : Table DomainRow} (h : d.Proper root)
    (hren : Renames d.domains domains)
    (hlinked : LinkedBy (fun s name => d.hostOf root s = some name) domains) :
    Proper root { d with domains } ∧ Keeps d { d with domains } :=
  ⟨⟨h.person, h.machine, h.service, hren.unique h.unique, hlinked⟩,
    Nat.le_refl _, fun _ _ _ hs => hs, hren.next, hren.names⟩

theorem insertDomain_proper {id : Nat} {name : String} (h : d.Proper root)
    (hok : d.insertDomain name = .ok (d', id)) :
    d'.Proper root ∧ Keeps d d' ∧ d'.domains.get? id = some { name } ∧ id < d'.domains.next := by
  unfold insertDomain at hok
  split_ifs at hok with hfound
  cases hok
  have hnone : (d.domains.find? fun _ row => row.name = name) = none := by
    simpa [findDomain] using hfound
  have hrenames : Renames d.domains (d.domains.insert { name }) := Renames.insert hnone
  have hproper := h.of_domains hrenames (by
    intro i row s hrow hs
    rw [Table.get?_insert] at hrow
    split at hrow
    · cases hrow
      cases hs
    · exact h.linked i row s hrow hs)
  exact ⟨hproper.1, hproper.2, Table.get?_insert.trans (if_pos rfl), Nat.lt_succ_self _⟩

theorem linkDomain_proper {id service : Nat} (h : d.Proper root)
    (hok : d.linkDomain id service = .ok d')
    (hhost : ∀ row, d.domains.get? id = some row → d.hostOf root service = some row.name) :
    d'.Proper root ∧ Keeps d d' := by
  unfold linkDomain at hok
  split_ifs at hok
  cases hok
  refine h.of_domains (Renames.update fun _ => rfl) fun i row s hrow hs => ?_
  rw [Table.get?_update] at hrow
  obtain ⟨row₀, hrow₀, rfl⟩ := Option.map_eq_some_iff.mp hrow
  by_cases hi : i = id
  · rw [if_pos (decide_eq_true hi)] at hs ⊢
    cases hs
    exact hhost row₀ (hi ▸ hrow₀)
  · rw [if_neg (by simpa using hi)] at hs ⊢
    exact h.linked i row₀ s hrow₀ hs

theorem setDomainActive_proper {name : String} {activeAt : Option Int} (h : d.Proper root) :
    (d.setDomainActive name activeAt).Proper root ∧ Keeps d (d.setDomainActive name activeAt) := by
  refine h.of_domains (Renames.update fun _ => rfl) fun i row s hrow hs => ?_
  rw [Table.get?_update] at hrow
  obtain ⟨row₀, hrow₀, rfl⟩ := Option.map_eq_some_iff.mp hrow
  split at hs
  · rw [if_pos ‹_›]
    exact h.linked i row₀ s hrow₀ hs
  · rw [if_neg ‹_›]
    exact h.linked i row₀ s hrow₀ hs

/-- The machine that holds a key, as `StoreIdentityResolver` sees it. -/
def identity (d : Directory) (key : KeyId) : Option (Nat × Identity) := do
  let (id, machine) ← d.machineByKey key
  let person ← d.persons.get? machine.personId
  return (id, { machineId := id, personId := machine.personId, person := person.name
                machine := machine.name })

/-- The hostname of a service a machine declares, after the current names. -/
def machineHost (d : Directory) (root : String) (machineId : Nat) (service : String) :
    Option String := do
  let machine ← d.machines.get? machineId
  let person ← d.persons.get? machine.personId
  return flatHostname person.name machine.name service root

end Directory

/-! ## Registrations -/

/-- The statement a `register_declared_service` call comes to next. -/
inductive Stage
  | findService
  | insertService
  | refindService
  | findDomain (service : Nat)
  | insertDomain (service : Nat)
  | refindDomain (service : Nat)
  | link (service id : Nat)
  deriving DecidableEq

/-- A `register_service` call that has read who holds its key. -/
structure Declaring where
  machineId : Nat
  service : String
  host : String
  stage : Stage := .findService
  deriving DecidableEq

namespace Declaring

variable {d d' : Directory} {root : String} {c : Declaring}

/-- The row that carries the hostname has been read. -/
def linkStage (service : Nat) (found : Nat × DomainRow) : Option Stage :=
  if found.2.serviceId = some service then none else some (.link service found.1)

/-- Run one statement, and where the call goes on, unless it returns. -/
def resume (d : Directory) (c : Declaring) (fails : Bool) : Directory × Option Stage :=
  let name := toAsciiLowercase c.host
  match c.stage with
  | .findService =>
    if !isValidServiceName c.service || fails then (d, none)
    else match d.findService c.machineId c.service with
      | some service => (d, some (.findDomain service))
      | none => (d, some .insertService)
  | .insertService =>
    match (if fails then .error .db else d.insertService c.machineId c.service) with
    | .ok (d, service) => (d, some (.findDomain service))
    | .error _ => (d, some .refindService)
  | .refindService =>
    if fails then (d, none) else (d, (d.findService c.machineId c.service).map .findDomain)
  | .findDomain service =>
    if fails then (d, none)
    else match d.findDomain name with
      | some found => (d, linkStage service found)
      | none => (d, some (.insertDomain service))
  | .insertDomain service =>
    match (if fails then .error .db else d.insertDomain name) with
    | .ok (d, id) => (d, some (.link service id))
    | .error _ => (d, some (.refindDomain service))
  | .refindDomain service =>
    if fails then (d, none) else (d, (d.findDomain name).bind (linkStage service))
  | .link service id =>
    match (if fails then .error .db else d.linkDomain id service) with
    | .ok d => (d, none)
    | .error _ => (d, none)

/-- The service a call has found or made is the one it declares. -/
def Owns (d : Directory) (c : Declaring) (service : Nat) : Prop :=
  service < d.services.next ∧ ∀ s, d.services.get? service = some s →
    s.machineId = c.machineId ∧ s.name = c.service

/-- What a call knows at a statement. -/
def Knows (d : Directory) (c : Declaring) : Stage → Prop
  | .findService | .insertService | .refindService => True
  | .findDomain service | .insertDomain service | .refindDomain service => c.Owns d service
  | .link service id => c.Owns d service ∧ id < d.domains.next ∧
    ∀ row, d.domains.get? id = some row → row.name = toAsciiLowercase c.host

theorem Owns.keeps {service : Nat} (h : c.Owns d service) (hk : Directory.Keeps d d') :
    c.Owns d' service :=
  ⟨Nat.lt_of_lt_of_le h.1 hk.services, fun s hs => h.2 s (hk.service service s h.1 hs)⟩

theorem Knows.keeps {stage : Stage} (h : c.Knows d stage) (hk : Directory.Keeps d d') :
    c.Knows d' stage := by
  cases stage with
  | findService | insertService | refindService => trivial
  | findDomain service | insertDomain service | refindDomain service => exact Owns.keeps h hk
  | link service id =>
    obtain ⟨howns, hlt, hname⟩ := h
    refine ⟨howns.keeps hk, Nat.lt_of_lt_of_le hlt hk.domains, fun row' hrow' => ?_⟩
    obtain ⟨row, hrow, hsame⟩ := hk.domain id row' hlt hrow'
    rw [hsame]
    exact hname row hrow

theorem owns_of_findService {service : Nat}
    (h : d.findService c.machineId c.service = some service) : c.Owns d service := by
  obtain ⟨found, hfound, rfl⟩ := Option.map_eq_some_iff.mp h
  obtain ⟨hget, hmatch⟩ := Table.find?_some hfound
  refine ⟨Table.lt_next hget, fun s hs => ?_⟩
  rw [Option.some.inj (hs.symm.trans hget)]
  simpa using hmatch

theorem knows_of_findDomain {service : Nat} {found : Nat × DomainRow} {stage : Stage}
    (howns : c.Owns d service) (h : d.findDomain (toAsciiLowercase c.host) = some found)
    (hstage : linkStage service found = some stage) : c.Knows d stage := by
  obtain ⟨hget, hmatch⟩ := Table.find?_some h
  unfold linkStage at hstage
  split at hstage
  · cases hstage
  · cases hstage
    refine ⟨howns, Table.lt_next hget, fun row hrow => ?_⟩
    rw [Option.some.inj (hrow.symm.trans hget)]
    exact of_decide_eq_true hmatch

/-- The hostname a call links is the current one. -/
theorem hostOf_of_owns {service id : Nat} {row : DomainRow} (hd : d.Proper root)
    (hknows : c.Knows d (.link service id)) (hservice : (d.services.get? service).isSome)
    (hrow : d.domains.get? id = some row)
    (hcurrent : (d.machineHost root c.machineId c.service).all (· = c.host) = true) :
    d.hostOf root service = some row.name := by
  obtain ⟨⟨-, howns⟩, -, hname⟩ := hknows
  obtain ⟨s, hs⟩ := Option.isSome_iff_exists.mp hservice
  obtain ⟨hmachine, hdeclared⟩ := howns s hs
  obtain ⟨m, hm⟩ := Option.isSome_iff_exists.mp (hd.service service s hs)
  obtain ⟨p, hp⟩ := Option.isSome_iff_exists.mp (hd.machine _ m hm).2
  have hhost : flatHostname p.name m.name s.name root = c.host := by
    rw [Directory.machineHost, ← hmachine, hm, Option.bind_eq_bind, Option.bind_some, hp] at hcurrent
    simpa [hdeclared] using hcurrent
  refine Directory.hostOf_eq_some.mpr ⟨s, m, p, hs, hm, hp, ?_⟩
  rw [hname row hrow, ← hhost, toAsciiLowercase_flatHostname]

/-- A statement keeps the tables proper, where a hostname that is linked is the current one. -/
theorem resume_proper {fails : Bool} (hd : d.Proper root) (hknows : c.Knows d c.stage)
    (hcurrent : ∀ service id, c.stage = .link service id → fails = false →
      (d.machineHost root c.machineId c.service).all (· = c.host) = true) :
    (c.resume d fails).1.Proper root ∧ Directory.Keeps d (c.resume d fails).1 ∧
      ∀ stage, (c.resume d fails).2 = some stage → c.Knows (c.resume d fails).1 stage := by
  unfold resume
  dsimp only
  split
  · split
    · exact ⟨hd, .refl, fun _ h => by cases h⟩
    · split
      · rename_i service hfound
        refine ⟨hd, .refl, fun stage h => ?_⟩
        cases h
        exact owns_of_findService hfound
      · refine ⟨hd, .refl, fun stage h => ?_⟩
        cases h
        trivial
  · split
    · rename_i d' service hinsert
      split at hinsert
      · cases hinsert
      · obtain ⟨hproper, hkeeps, -, hget, hlt⟩ := Directory.insertService_proper hd hinsert
        refine ⟨hproper, hkeeps, fun stage h => ?_⟩
        cases h
        refine ⟨hlt, fun s hs => ?_⟩
        rw [Option.some.inj (hs.symm.trans hget)]
        exact ⟨rfl, rfl⟩
    · refine ⟨hd, .refl, fun stage h => ?_⟩
      cases h
      trivial
  · split
    · exact ⟨hd, .refl, fun _ h => by cases h⟩
    · refine ⟨hd, .refl, fun stage h => ?_⟩
      obtain ⟨service, hfound, rfl⟩ := Option.map_eq_some_iff.mp h
      exact owns_of_findService hfound
  · rename_i service hstage
    rw [hstage] at hknows
    split
    · exact ⟨hd, .refl, fun _ h => by cases h⟩
    · split
      · rename_i found hfound
        exact ⟨hd, .refl, fun stage h => knows_of_findDomain hknows hfound h⟩
      · refine ⟨hd, .refl, fun stage h => ?_⟩
        cases h
        exact hknows
  · rename_i service hstage
    rw [hstage] at hknows
    split
    · rename_i d' id hinsert
      split at hinsert
      · cases hinsert
      · obtain ⟨hproper, hkeeps, hget, hlt⟩ := Directory.insertDomain_proper hd hinsert
        refine ⟨hproper, hkeeps, fun stage h => ?_⟩
        cases h
        refine ⟨Owns.keeps hknows hkeeps, hlt, fun row hrow => ?_⟩
        rw [Option.some.inj (hrow.symm.trans hget)]
    · refine ⟨hd, .refl, fun stage h => ?_⟩
      cases h
      exact hknows
  · rename_i service hstage
    rw [hstage] at hknows
    split
    · exact ⟨hd, .refl, fun _ h => by cases h⟩
    · refine ⟨hd, .refl, fun stage h => ?_⟩
      obtain ⟨found, hfound, hlink⟩ := Option.bind_eq_some_iff.mp h
      exact knows_of_findDomain hknows hfound hlink
  · rename_i service id hstage
    rw [hstage] at hknows
    split
    · rename_i d' hlink
      split at hlink
      · cases hlink
      · rename_i hfails
        have hservice : (d.services.get? service).isSome := by
          unfold Directory.linkDomain at hlink
          split_ifs at hlink with hrefused
          rw [Bool.or_eq_true, not_or] at hrefused
          simpa [Option.isSome_iff_ne_none] using hrefused.2
        obtain ⟨hproper, hkeeps⟩ := Directory.linkDomain_proper hd hlink fun row hrow =>
          hostOf_of_owns hd hknows hservice hrow
            (hcurrent service id hstage (Bool.eq_false_of_not_eq_true hfails))
        exact ⟨hproper, hkeeps, fun _ h => by cases h⟩
    · exact ⟨hd, .refl, fun _ h => by cases h⟩

end Declaring

/-! ## Runs -/

namespace Hostnames

structure World where
  dir : Directory := {}
  /-- The registrations in progress. -/
  calls : List Declaring := []

inductive Act
  | createPerson (accountId : Nat) (name : String)
  | createMachine (person : Nat) (name : String) (key : KeyId) (now : Int)
  | replaceMachineKey (machineId : Nat) (key : KeyId) (now : Int)
  | revokeMachine (key : KeyId) (now : Int)
  | renameMachine (machineId : Nat) (newName : String)
  | setDomainActive (name : String) (activeAt : Option Int)
  /-- A call reads who holds its key, and makes the hostname. -/
  | register (key : KeyId) (service : String)
  | resume (index : Nat) (fails : Bool)
  /-- A call is refused or cancelled. -/
  | abandon (index : Nat)

variable (root : String)

namespace World

/-- What a transaction leaves. -/
def commit (w : World) : Except StoreError Directory → World
  | .ok dir => { w with dir }
  | .error _ => w

def step (w : World) : Act → Option World
  | .createPerson accountId name => some (w.commit (w.dir.createPerson accountId name))
  | .createMachine person name key now =>
    some (w.commit (w.dir.createMachine person name key now))
  | .replaceMachineKey machineId key now =>
    some (w.commit (w.dir.replaceMachineKey machineId key now))
  | .revokeMachine key now => some { w with dir := w.dir.revokeMachine key now }
  | .renameMachine machineId newName =>
    some (w.commit ((w.dir.renameMachine machineId newName).map (·.1)))
  | .setDomainActive name activeAt => some { w with dir := w.dir.setDomainActive name activeAt }
  | .register key service =>
    match w.dir.identity key with
    | none => some w
    | some (machineId, identity) => some
      { w with
        calls := w.calls ++ [{ machineId, service, host := identity.hostname service root }] }
  | .resume index fails =>
    match w.calls[index]? with
    | none => none
    | some c =>
      let (dir, stage) := c.resume w.dir fails
      some
        { dir
          calls := match stage with
            | none => w.calls.eraseIdx index
            | some stage => w.calls.set index { c with stage } }
  | .abandon index => some { w with calls := w.calls.eraseIdx index }

structure Initial (w : World) : Prop where
  proper : w.dir.Proper root
  calls : w.calls = []

/-- While no registration is in progress, a hostname that a service owns is made of the current names
of its person, its machine and itself, and no two services own the same. -/
def Follows (w : World) : Prop :=
  w.calls = [] →
    (∀ i row s, w.dir.domains.get? i = some row → row.serviceId = some s →
      w.dir.hostOf root s = some row.name) ∧
    ∀ i j row row' s s', w.dir.domains.get? i = some row → row.serviceId = some s →
      w.dir.domains.get? j = some row' → row'.serviceId = some s' → row.name = row'.name → s = s'

/-- A hostname is linked while the names it was made of are still those of the machine. -/
def Fresh (w : World) : Act → Prop
  | .resume index fails => (w.calls[index]?).all fun c => match c.stage with
    | .link .. => fails || (w.dir.machineHost root c.machineId c.service).all (· = c.host)
    | _ => true
  | _ => True

instance (w : World) : (a : Act) → Decidable (w.Fresh root a)
  | .resume .. => inferInstanceAs (Decidable (_ = true))
  | .createPerson .. | .createMachine .. | .replaceMachineKey .. | .revokeMachine ..
  | .renameMachine .. | .setDomainActive .. | .register .. | .abandon .. =>
    inferInstanceAs (Decidable True)

/-- The tables are proper, and every call in progress knows what it should. -/
structure Sound (w : World) : Prop where
  proper : w.dir.Proper root
  calls : ∀ c ∈ w.calls, c.Knows w.dir c.stage

variable {root}

theorem Initial.sound {w : World} (h : w.Initial root) : w.Sound root :=
  ⟨h.proper, fun c hc => absurd hc (by simp [h.calls])⟩

/-- The tables change and the calls stay where they are. -/
theorem Sound.of_dir {w : World} {dir : Directory} (h : w.Sound root)
    (hd : dir.Proper root ∧ Directory.Keeps w.dir dir) : Sound root { w with dir } :=
  ⟨hd.1, fun c hc => (h.calls c hc).keeps hd.2⟩

theorem Sound.commit {w : World} {result : Except StoreError Directory} (h : w.Sound root)
    (hd : ∀ dir, result = .ok dir → dir.Proper root ∧ Directory.Keeps w.dir dir) :
    (w.commit result).Sound root := by
  cases result with
  | error e => exact h
  | ok dir => exact h.of_dir (hd dir rfl)

theorem Sound.step {w w' : World} {a : Act} (h : w.Sound root) (ha : w.Fresh root a)
    (hstep : w.step root a = some w') : w'.Sound root := by
  cases a with
  | createPerson accountId name =>
    cases hstep
    exact h.commit fun dir hok => Directory.createPerson_proper h.proper hok
  | createMachine person name key now =>
    cases hstep
    exact h.commit fun dir hok => Directory.createMachine_proper h.proper hok
  | replaceMachineKey machineId key now =>
    cases hstep
    exact h.commit fun dir hok => Directory.replaceMachineKey_proper h.proper hok
  | revokeMachine key now =>
    cases hstep
    exact h.of_dir (Directory.revokeMachine_proper h.proper)
  | renameMachine machineId newName =>
    cases hstep
    refine h.commit fun dir hok => ?_
    cases hrename : w.dir.renameMachine machineId newName with
    | error e =>
      rw [hrename] at hok
      cases hok
    | ok renamed =>
      rw [hrename] at hok
      cases hok
      exact Directory.renameMachine_proper h.proper hrename
  | setDomainActive name activeAt =>
    cases hstep
    exact h.of_dir (Directory.setDomainActive_proper h.proper)
  | register key service =>
    simp only [World.step] at hstep
    split at hstep
    · cases hstep
      exact h
    · cases hstep
      refine ⟨h.proper, fun c hc => ?_⟩
      rcases List.mem_append.mp hc with hc | hc
      · exact h.calls c hc
      · rw [List.mem_singleton.mp hc]
        trivial
  | resume index fails =>
    simp only [World.step] at hstep
    cases hget : w.calls[index]? with
    | none =>
      rw [hget] at hstep
      cases hstep
    | some c =>
      rw [hget] at hstep
      cases hstep
      have hcurrent (service id : Nat) (hstage : c.stage = .link service id)
          (hfails : fails = false) :
          (w.dir.machineHost root c.machineId c.service).all (· = c.host) = true := by
        simpa [Fresh, hget, hstage, hfails] using ha
      obtain ⟨hproper, hkeeps, hstages⟩ := c.resume_proper h.proper
        (h.calls c (List.mem_of_getElem? hget)) hcurrent
      refine ⟨hproper, fun c' hc' => ?_⟩
      dsimp only at hc' ⊢
      split at hc'
      · exact (h.calls c' (List.mem_of_mem_eraseIdx hc')).keeps hkeeps
      · rename_i stage hstage
        rcases List.mem_or_eq_of_mem_set hc' with hc' | rfl
        · exact (h.calls c' hc').keeps hkeeps
        · exact hstages stage hstage
  | abandon index =>
    cases hstep
    exact ⟨h.proper, fun c hc => h.calls c (List.mem_of_mem_eraseIdx hc)⟩

theorem Sound.follows {w : World} (h : w.Sound root) : w.Follows root := by
  refine fun _ => ⟨h.proper.linked, fun i j row row' s s' hi hs hj hs' hname => ?_⟩
  obtain rfl := h.proper.unique i j row row' hi hj hname
  rw [Option.some.inj (hi.symm.trans hj), hs'] at hs
  exact (Option.some.inj hs).symm

variable (root)

/-- Stored hostnames follow the machine name, where a hostname is linked while the names it was made
of are still current. -/
theorem hostnames_follow {w w' : World} {acts : List Act} (hinit : w.Initial root)
    (hm : Meets (step root) (Fresh root) w acts) (h : run (step root) w acts = some w') :
    w'.Follows root := by
  have hs : w'.Sound root :=
    run_invariant_of_meets (fun hs ha hstep => hs.step ha hstep) hm hinit.sound h
  exact hs.follows

theorem initial_empty : Initial root {} := by
  refine ⟨⟨?_, ?_, ?_, ?_, ?_⟩, rfl⟩
  · intro i p hp
    cases hp
  · intro i m hm
    cases hm
  · intro i s hs
    cases hs
  · intro i j row row' hi
    cases hi
  · intro i row s hrow
    cases hrow

namespace Sample

def key : KeyId := .ed25519 ⟨List.replicate 32 1, by simp⟩

/-- `ann` pairs her laptop, which declares `web`; `n` statements of the registration have run. -/
def declared (n : Nat) : List Act :=
  [.createPerson 1 "ann", .createMachine 1 "laptop" key 10, .register key "web"] ++
    List.replicate n (.resume 0 false)

/-- The machine is renamed once the service is registered. -/
def renamed : List Act := declared 5 ++ [.renameMachine 1 "desk"]

/-- The machine is renamed before the registration has run its statements. -/
def renamedBefore : List Act :=
  declared 0 ++ [.renameMachine 1 "desk"] ++ List.replicate 5 (.resume 0 false)

end Sample

theorem hostnames_follow_renamed : ∃ w, run (step "relay.test") {} Sample.renamed = some w ∧
    w.Follows "relay.test" ∧
    w.dir.domains.rows.map (·.2.name) = ["ann-desk-web.relay.test"] := by
  have hm : Meets (step "relay.test") (Fresh "relay.test") {} Sample.renamed := by
    decide +kernel
  obtain ⟨w, hw, hrows⟩ := (Option.any_eq_true (fun w : World =>
    w.dir.domains.rows.map (·.2.name) = ["ann-desk-web.relay.test"])
      (run (step "relay.test") {} Sample.renamed)).mp (by decide +kernel)
  exact ⟨w, hw, hostnames_follow "relay.test" (initial_empty _) hm hw, of_decide_eq_true hrows⟩

/-- The service of a renamed machine owns a hostname under the old name. -/
theorem hostname_stale : ¬∀ (root : String) (w w' : World) (acts : List Act), w.Initial root →
    run (step root) w acts = some w' → w'.Follows root := by
  intro h
  obtain ⟨w, hw, hend⟩ := (Option.any_eq_true (fun w : World => w.calls = [] &&
    w.dir.domains.rows.any fun e => e.2.serviceId.any fun s =>
      w.dir.hostOf "relay.test" s ≠ some e.2.name)
        (run (step "relay.test") {} Sample.renamedBefore)).mp (by decide +kernel)
  obtain ⟨hcalls, hstale⟩ := Bool.and_eq_true_iff.mp hend
  obtain ⟨⟨i, row⟩, he, hany⟩ := List.any_eq_true.mp hstale
  obtain ⟨s, hs, hne⟩ := Option.any_eq_true _ _ |>.mp hany
  have hfollows := (h "relay.test" {} w _ (initial_empty _) hw (of_decide_eq_true hcalls)).1
  exact of_decide_eq_true hne (hfollows i row s (Table.get?_eq_some.mpr he) hs)

end World

end Hostnames

end TunnelWeaver.Server
