import TunnelWeaver.Lib.Transaction
import TunnelWeaver.Client.Relays

/-! The writes to the table of paired relays (`weave/src/store/mod.rs`), each in a transaction of
which every statement may fail. The table has unique hosts, and a partial unique index over the rows
that are the default; each statement is checked against both. -/

namespace TunnelWeaver.Client

open Mux (KeyId)
open Transaction (Ending call Denotes denotes_bind denotes_call denotes_pure)

/-! ## The book of pairings -/

structure Pairing where
  host : String
  machineId : Int
  keyId : KeyId
  deriving DecidableEq

/-- The relays in the order they were paired, and the default one of them. -/
structure Book where
  pairings : List Pairing
  default : Option String
  nodup : (pairings.map (·.host)).Nodup
  default_mem : ∀ host, default = some host → host ∈ pairings.map (·.host)
  default_isSome : pairings ≠ [] → default.isSome = true

def Relay.pairing (r : Relay) : Pairing := ⟨r.adminHost, r.machineId, r.keyId⟩

namespace Book

variable (b : Book)

def hosts : List String := b.pairings.map (·.host)

def empty : Book where
  pairings := []
  default := none
  nodup := .nil
  default_mem _ h := by cases h
  default_isSome h := absurd rfl h

/-- A relay that is paired again keeps its place. -/
def replace (p q : Pairing) : Pairing := if q.host = p.host then p else q

theorem map_host_replace (p : Pairing) (l : List Pairing) :
    (l.map (replace p)).map (·.host) = l.map (·.host) := by
  rw [List.map_map]
  refine List.map_congr_left fun q _ => ?_
  rw [Function.comp_apply, replace]
  split
  · rename_i h
    exact h.symm
  · rfl

def pairAgain (p : Pairing) : Book where
  pairings := b.pairings.map (replace p)
  default := b.default
  nodup := by
    rw [map_host_replace]
    exact b.nodup
  default_mem host h := by
    rw [map_host_replace]
    exact b.default_mem host h
  default_isSome h := b.default_isSome fun he => h (by rw [he]; rfl)

/-- A new relay comes last, and becomes the default when there is none. -/
def pairNew (p : Pairing) (hnew : p.host ∉ b.hosts) : Book where
  pairings := b.pairings ++ [p]
  default := b.default.or (some p.host)
  nodup := by
    rw [List.map_append]
    refine List.nodup_append.mpr ⟨b.nodup, List.nodup_singleton _, ?_⟩
    intro host hhost host' hhost' he
    rw [he, List.mem_singleton.mp hhost'] at hhost
    exact hnew hhost
  default_mem host h := by
    rw [List.map_append]
    cases hdefault : b.default with
    | none =>
      rw [hdefault] at h
      exact List.mem_append_right _ (List.mem_singleton.mpr (Option.some.inj h).symm)
    | some current =>
      rw [hdefault] at h
      exact List.mem_append_left _ (b.default_mem host (hdefault.trans h))
  default_isSome _ := by cases b.default <;> rfl

def pair (p : Pairing) : Book :=
  if hnew : p.host ∈ b.hosts then b.pairAgain p else b.pairNew p hnew

def setDefault (host : String) : Book :=
  if h : host ∈ b.hosts then
    { b with
      default := some host
      default_mem := fun _ he => Option.some.inj he ▸ h
      default_isSome := fun _ => rfl }
  else b

/-- When the default is forgotten, the relay paired longest ago takes over. -/
def forget (host : String) : Book where
  pairings := b.pairings.filter (·.host ≠ host)
  default := if b.default = some host then (b.pairings.filter (·.host ≠ host)).head?.map (·.host)
    else b.default
  nodup := b.nodup.sublist (List.filter_sublist.map _)
  default_mem host' h := by
    split at h
    · obtain ⟨p, hp, rfl⟩ := Option.map_eq_some_iff.mp h
      exact List.mem_map_of_mem (List.mem_of_head? hp)
    · rename_i hother
      obtain ⟨p, hp, rfl⟩ := List.mem_map.mp (b.default_mem host' h)
      refine List.mem_map_of_mem (List.mem_filter.mpr ⟨hp, decide_eq_true fun he => hother ?_⟩)
      rw [h, he]
  default_isSome h := by
    split
    · rw [Option.isSome_map, List.isSome_head?]
      exact h
    · exact b.default_isSome fun he => h (by rw [he]; rfl)

@[ext]
theorem ext {b b' : Book} (hpairings : b.pairings = b'.pairings) (hdefault : b.default = b'.default) :
    b = b' := by
  cases b
  cases b'
  cases hpairings
  cases hdefault
  rfl

theorem default_forget (host : String) : (b.forget host).default =
    if b.default = some host then (b.forget host).pairings.head?.map (·.host) else b.default := rfl

theorem forget_of_notMem {host : String} (h : host ∉ b.hosts) : b.forget host = b := by
  refine Book.ext ?_ (if_neg fun hdefault => h (b.default_mem host hdefault))
  refine List.filter_eq_self.mpr fun p hp => decide_eq_true fun he => h ?_
  exact List.mem_map.mpr ⟨p, hp, he⟩

end Book

namespace Relays

inductive StoreError
  | host (e : HostError)
  | db
  deriving DecidableEq

/-! ## Statements -/

/-- A statement on the table, which an index may refuse. -/
abbrev Stmt := StateT Relays (Except StoreError)

/-- The unique indexes admit the row next to the other ones. -/
def admits (t : Relays) (id : Nat) (r : Relay) : Bool :=
  t.rows.all fun e => e.1 = id || e.2.adminHost ≠ r.adminHost && !(e.2.isDefault && r.isDefault)

def selectHost (adminHost : String) : Stmt (Option (Nat × Relay)) := fun t =>
  .ok (t.findHost adminHost, t)

def selectDefault : Stmt (Option (Nat × Relay)) := fun t => .ok (t.findDefault, t)

/-- `ORDER BY id ASC LIMIT 1` -/
def selectOldest : Stmt (Option (Nat × Relay)) := fun t => .ok (t.rows.head?, t)

def insert (r : Relay) : Stmt (Nat × Relay) := fun t =>
  if t.admits t.next r then .ok ((t.next, r), Table.insert t r) else .error .db

def update (id : Nat) (r : Relay) : Stmt (Nat × Relay) := fun t =>
  if t.admits id r then .ok ((id, r), t.set id r) else .error .db

/-- `UPDATE relay SET is_default = FALSE WHERE is_default` -/
def clearDefault : Stmt Unit := fun t =>
  .ok ((), Table.update t (fun _ r => r.isDefault) fun r => { r with isDefault := false })

def deleteById (id : Nat) : Stmt Unit := fun t => .ok ((), Table.delete t fun i _ => i = id)

/-! ## Operations

The code of a transaction, with the way it calls the database. -/

section
variable {m : Type → Type} [Monad m] (sql : ∀ {α : Type}, Stmt α → m α)

/-- The code of `record_pairing`, which answers the row. -/
def recordPairing (adminHost : String) (machineId : Int) (keyId : KeyId) :
    m (Ending (Option (Nat × Relay))) := do
  match ← sql (selectHost adminHost) with
  | some (id, existing) =>
    return .commit (some (← sql (update id { existing with machineId, keyId })))
  | none =>
    let hasDefault := (← sql selectDefault).isSome
    return .commit (some (← sql (insert { adminHost, machineId, keyId, isDefault := !hasDefault })))

/-- The code of `set_default`. -/
def setDefault (adminHost : String) : m (Ending (Option (Nat × Relay))) := do
  match ← sql (selectHost adminHost) with
  | none => return .drop none
  | some (id, target) =>
    sql clearDefault
    return .commit (some (← sql (update id { target with isDefault := true })))

/-- The code of `forget`, which answers the row that became the default. -/
def forgetRelay (adminHost : String) : m (Ending (Option (Nat × Relay))) := do
  match ← sql (selectHost adminHost) with
  | none => return .drop none
  | some (id, removed) =>
    sql (deleteById id)
    if removed.isDefault then
      match ← sql selectOldest with
      | none => return .commit none
      | some (next, row) =>
        return .commit (some (← sql (update next { row with isDefault := true })))
    else return .commit none

end

/-- A write of the store. -/
inductive Write
  | recordPairing (machineId : Int) (keyId : KeyId)
  | setDefault
  | forget

namespace Write

/-- The code of a write, under the canonical host. -/
def code {m : Type → Type} [Monad m] (sql : ∀ {α : Type}, Stmt α → m α) (adminHost : String) :
    Write → m (Ending (Option (Nat × Relay)))
  | recordPairing machineId keyId => Relays.recordPairing sql adminHost machineId keyId
  | setDefault => Relays.setDefault sql adminHost
  | forget => Relays.forgetRelay sql adminHost

/-- The write under a host as it was spelled, of which the calls fail that `fails` says. -/
def run (fails : Nat → Bool) (w : Write) (adminHost : String) (t : Relays) :
    Except StoreError (Option (Nat × Relay)) × Relays :=
  match normalizeAdminHost adminHost with
  | .error e => (.error (.host e), t)
  | .ok adminHost => Transaction.run .db fails (w.code (call .db) adminHost) t

/-- What the code of a write means. -/
def means (w : Write) (adminHost : String) : Stmt (Ending (Option (Nat × Relay))) :=
  w.code (fun stmt => stmt) adminHost

theorem denotes_code (w : Write) (adminHost : String) :
    Denotes .db (w.code (call .db) adminHost) (w.means adminHost) := by
  cases w with
  | recordPairing machineId keyId =>
    refine denotes_bind (denotes_call _) fun found => ?_
    cases found with
    | some e => exact denotes_bind (denotes_call _) fun saved => denotes_pure _
    | none =>
      refine denotes_bind (denotes_call _) fun default => ?_
      exact denotes_bind (denotes_call _) fun saved => denotes_pure _
  | setDefault =>
    refine denotes_bind (denotes_call _) fun found => ?_
    cases found with
    | none => exact denotes_pure _
    | some e =>
      refine denotes_bind (denotes_call _) fun _ => ?_
      exact denotes_bind (denotes_call _) fun saved => denotes_pure _
  | forget =>
    refine denotes_bind (denotes_call _) fun found => ?_
    cases found with
    | none => exact denotes_pure _
    | some e =>
      refine denotes_bind (denotes_call _) fun _ => ?_
      change Denotes _ (ite _ _ _) (ite _ _ _)
      split
      · refine denotes_bind (denotes_call _) fun oldest => ?_
        cases oldest with
        | none => exact denotes_pure _
        | some next => exact denotes_bind (denotes_call _) fun saved => denotes_pure _
      · exact denotes_pure _

end Write

/-- What a write does to the book. -/
def Write.effect (w : Write) (host : String) (b : Book) : Book :=
  match w with
  | .recordPairing machineId keyId => b.pair ⟨host, machineId, keyId⟩
  | .setDefault => b.setDefault host
  | .forget => b.forget host

/-! ## The table keeps the book -/

def pairings (t : Relays) : List Pairing := t.rows.map fun e => e.2.pairing

def hosts (t : Relays) : List String := t.rows.map fun e => e.2.adminHost

def defaultHost (t : Relays) : Option String := t.findDefault.map fun e => e.2.adminHost

/-- The rows are the pairings, and the flag of the default is on its row. -/
structure Models (t : Relays) (b : Book) : Prop where
  pairings : t.pairings = b.pairings
  default : ∀ e ∈ t.rows, e.2.isDefault = true ↔ b.default = some e.2.adminHost

variable {t : Relays} {b : Book} {id : Nat} {r : Relay} {host : String}

theorem models_empty : Models ∅ Book.empty := ⟨rfl, fun _ h => absurd h List.not_mem_nil⟩

theorem hosts_eq (h : t.pairings = b.pairings) : t.hosts = b.hosts := by
  rw [Book.hosts, ← h, pairings, List.map_map]
  rfl

theorem Models.hosts (h : Models t b) : t.hosts = b.hosts := hosts_eq h.pairings

/-- Every host is stored once. -/
def HostsNodup (t : Relays) : Prop := t.hosts.Nodup

theorem Models.hostsNodup (h : Models t b) : t.HostsNodup := by
  rw [HostsNodup, h.hosts]
  exact b.nodup

theorem HostsNodup.row_eq (h : t.HostsNodup) {e e' : Nat × Relay} (he : e ∈ t.rows)
    (he' : e' ∈ t.rows) (hhost : e.2.adminHost = e'.2.adminHost) : e = e' :=
  List.inj_on_of_nodup_map h he he' hhost

/-- A row has its id and its host to itself. -/
theorem HostsNodup.id_iff (h : t.HostsNodup) (hr : (id, r) ∈ t.rows) {e : Nat × Relay}
    (he : e ∈ t.rows) : e.1 = id ↔ e.2.adminHost = r.adminHost := by
  constructor
  · rintro rfl
    rw [Table.eq_of_mem he hr]
  · intro hhost
    rw [h.row_eq he hr hhost]

theorem Models.findHost_eq_none (h : Models t b) : t.findHost host = none ↔ host ∉ b.hosts := by
  rw [← h.hosts, findHost, Table.find?, List.find?_eq_none, Relays.hosts, List.mem_map]
  simp

theorem findHost_mem {e : Nat × Relay} (h : t.findHost host = some e) :
    e ∈ t.rows ∧ e.2.adminHost = host := by
  have hhost := List.find?_some h
  exact ⟨List.mem_of_find?_eq_some h, of_decide_eq_true hhost⟩

/-- Some relay is stored just when exactly one is the default. -/
theorem Models.count_default (h : Models t b) :
    t.rows ≠ [] ↔ t.rows.countP (·.2.isDefault) = 1 := by
  constructor
  · intro hne
    have hpairings : b.pairings ≠ [] := by
      rw [← h.pairings]
      exact fun he => hne (List.map_eq_nil_iff.mp he)
    obtain ⟨d, hd⟩ := Option.isSome_iff_exists.mp (b.default_isSome hpairings)
    have hcount : t.rows.countP (·.2.isDefault) = b.hosts.count d := by
      rw [← h.hosts, List.count_eq_countP, Relays.hosts, List.countP_map]
      refine List.countP_congr fun e he => ?_
      rw [h.default e he, hd, Function.comp_apply, beq_iff_eq, Option.some.injEq, eq_comm]
    rw [hcount]
    exact List.count_eq_one_of_mem b.nodup (b.default_mem d hd)
  · intro hcount he
    rw [he] at hcount
    cases hcount

/-- The row that a book has as its default. -/
theorem Models.defaultHost (h : Models t b) : t.defaultHost = b.default := by
  rw [Relays.defaultHost]
  cases hfind : t.findDefault with
  | none =>
    cases hdefault : b.default with
    | none => rfl
    | some d =>
      have hmem : d ∈ t.hosts := by
        rw [h.hosts]
        exact b.default_mem d hdefault
      obtain ⟨e, he, rfl⟩ := List.mem_map.mp hmem
      exact absurd ((h.default e he).mpr hdefault) (List.find?_eq_none.mp hfind e he)
  | some e =>
    have he := List.mem_of_find?_eq_some hfind
    have hflag := List.find?_some hfind
    exact ((h.default e he).mp hflag).symm

/-! ## What the statements do -/

theorem admits_iff : t.admits id r = true ↔ ∀ e ∈ t.rows, e.1 ≠ id →
    e.2.adminHost ≠ r.adminHost ∧ (e.2.isDefault = true → r.isDefault = false) := by
  rw [admits, List.all_eq_true]
  refine forall₂_congr fun e _ => ?_
  rw [Bool.or_eq_true, Bool.and_eq_true, decide_eq_true_iff, decide_eq_true_iff, or_iff_not_imp_left]
  cases e.2.isDefault <;> cases r.isDefault <;> simp

theorem rows_set (t : Relays) (id : Nat) (r : Relay) :
    (t.set id r).rows = t.rows.map fun e => (e.1, if e.1 = id then r else e.2) := by
  simp [Table.set, Table.update]

/-- A row is replaced under its host, where no other row is the default if it is. -/
theorem update_eq (h : t.HostsNodup) (hmem : (id, r) ∈ t.rows) (saved : Relay)
    (hhost : saved.adminHost = r.adminHost)
    (hdefault : ∀ e ∈ t.rows, e.1 ≠ id → e.2.isDefault = true → saved.isDefault = false) :
    update id saved t = .ok ((id, saved), t.set id saved) := by
  have hadmits : t.admits id saved = true := by
    refine admits_iff.mpr fun e he hne => ⟨fun hsame => hne ?_, hdefault e he hne⟩
    exact (h.id_iff hmem he).mpr (hsame.trans hhost)
  rw [update, hadmits]
  rfl

/-! ## What the writes do -/

/-- A write answers, and leaves a table that keeps the book. -/
def Keeps (w : Write) (host : String) (t : Relays) (b : Book) : Prop :=
  ∃ answer, (Transaction.meaning (w.means host) t).1 = .ok answer ∧
    Models (Transaction.meaning (w.means host) t).2 (w.effect host b)

theorem keeps_commit {w : Write} (answer : Option (Nat × Relay)) (t' : Relays)
    (h : w.means host t = .ok (.commit answer, t')) (hmodels : Models t' (w.effect host b)) :
    Keeps w host t b := by
  rw [Keeps, Transaction.meaning, h]
  exact ⟨answer, rfl, hmodels⟩

/-- A host that is not stored changes nothing. -/
theorem meaning_unknown (hfind : t.findHost host = none) {w : Write}
    (hw : w = .setDefault ∨ w = .forget) :
    Transaction.meaning (w.means host) t = (.ok none, t) := by
  obtain rfl | rfl := hw
  · simp only [Transaction.meaning, Write.means, Write.code, Relays.setDefault, bind, StateT.bind,
      selectHost, hfind, Except.bind]
    rfl
  · simp only [Transaction.meaning, Write.means, Write.code, forgetRelay, bind, StateT.bind,
      selectHost, hfind, Except.bind]
    rfl

theorem Models.mem_hosts {e : Nat × Relay} (h : Models t b) (hfind : t.findHost host = some e) :
    host ∈ b.hosts := by
  by_contra hnot
  rw [h.findHost_eq_none.mpr hnot] at hfind
  cases hfind

/-- The rows are changed one by one. -/
theorem models_map {t' : Relays} {f : Pairing → Pairing} {g : Nat × Relay → Relay}
    (hrows : t'.rows = t.rows.map fun e => (e.1, g e))
    (hbook : b.pairings = t.pairings.map f)
    (hpairing : ∀ e ∈ t.rows, (g e).pairing = f e.2.pairing)
    (hdefault : ∀ e ∈ t.rows, (g e).isDefault = true ↔ b.default = some (g e).adminHost) :
    Models t' b where
  pairings := by
    rw [Relays.pairings, hrows, hbook, Relays.pairings, List.map_map, List.map_map]
    exact List.map_congr_left hpairing
  default e he := by
    rw [hrows] at he
    obtain ⟨e₀, he₀, rfl⟩ := List.mem_map.mp he
    exact hdefault e₀ he₀

/-- A relay that is paired again has its row updated in place. -/
theorem Models.pairAgain (h : Models t b) (hmem : (id, r) ∈ t.rows) (machineId : Int)
    (keyId : KeyId) : Models (t.set id { r with machineId, keyId })
      (b.pairAgain ⟨r.adminHost, machineId, keyId⟩) := by
  have hid {e : Nat × Relay} (he : e ∈ t.rows) := h.hostsNodup.id_iff hmem he
  refine models_map (rows_set t id _) (congrArg (List.map _) h.pairings.symm) (fun e he => ?_)
    fun e he => ?_
  · rw [Book.replace]
    split
    · rename_i hsame
      exact (if_pos ((hid he).mp hsame)).symm
    · rename_i hother
      exact (if_neg fun hsame => hother ((hid he).mpr hsame)).symm
  · split
    · exact h.default _ hmem
    · exact h.default e he

/-- A new relay has its row inserted last. -/
theorem Models.pairNew (h : Models t b) (hnew : host ∉ b.hosts) (machineId : Int) (keyId : KeyId) :
    Models (Table.insert t ⟨host, machineId, keyId, !b.default.isSome⟩)
      (b.pairNew ⟨host, machineId, keyId⟩ hnew) where
  pairings := by
    change _ = b.pairings ++ [_]
    rw [← h.pairings]
    exact List.map_append
  default e he := by
    change e ∈ t.rows ++ [_] at he
    change _ ↔ b.default.or (some host) = _
    rcases List.mem_append.mp he with he | he
    · rw [h.default e he]
      cases hdefault : b.default with
      | none =>
        have hhost : host ≠ e.2.adminHost := fun hsame =>
          hnew (h.hosts ▸ List.mem_map.mpr ⟨e, he, hsame.symm⟩)
        simp [hhost]
      | some d => rfl
    · rw [List.mem_singleton.mp he]
      cases hdefault : b.default with
      | none => simp
      | some d =>
        have hhost : d ≠ host := fun hsame => hnew (hsame ▸ b.default_mem d hdefault)
        simp [hhost]

theorem Models.recordPairing (h : Models t b) (machineId : Int) (keyId : KeyId) :
    Keeps (.recordPairing machineId keyId) host t b := by
  cases hfind : t.findHost host with
  | some e =>
    obtain ⟨id, r⟩ := e
    obtain ⟨hmem, rfl⟩ := findHost_mem hfind
    have hupdate : update id { r with machineId, keyId } t =
        .ok ((id, { r with machineId, keyId }), t.set id { r with machineId, keyId }) := by
      refine update_eq h.hostsNodup hmem _ rfl fun e he hne hflag => ?_
      dsimp only
      rw [← Bool.not_eq_true, h.default _ hmem, (h.default e he).mp hflag, Option.some.injEq]
      exact fun hsame => hne ((h.hostsNodup.id_iff hmem he).mpr hsame)
    refine keeps_commit (some (id, { r with machineId, keyId }))
      (t.set id { r with machineId, keyId }) ?_ ?_
    · simp only [Write.means, Write.code, Relays.recordPairing, bind, StateT.bind, selectHost,
        hfind, Except.bind, hupdate]
      rfl
    · rw [Write.effect, Book.pair, dif_pos (h.mem_hosts hfind)]
      exact h.pairAgain hmem machineId keyId
  | none =>
    have hnew := h.findHost_eq_none.mp hfind
    have hdefault : (t.findDefault).isSome = b.default.isSome := by
      rw [← h.defaultHost, Relays.defaultHost, Option.isSome_map]
    have hadmits : t.admits t.next ⟨host, machineId, keyId, !b.default.isSome⟩ = true := by
      refine admits_iff.mpr fun e he _ => ⟨fun hsame => ?_, fun hflag => ?_⟩
      · exact hnew (h.hosts ▸ List.mem_map.mpr ⟨e, he, hsame⟩)
      · rw [(h.default e he).mp hflag]
        rfl
    have hinsert : insert ⟨host, machineId, keyId, !b.default.isSome⟩ t =
        .ok ((t.next, ⟨host, machineId, keyId, !b.default.isSome⟩),
          Table.insert t ⟨host, machineId, keyId, !b.default.isSome⟩) := by
      rw [insert, hadmits]
      rfl
    refine keeps_commit (some (t.next, ⟨host, machineId, keyId, !b.default.isSome⟩))
      (Table.insert t ⟨host, machineId, keyId, !b.default.isSome⟩) ?_ ?_
    · simp only [Write.means, Write.code, Relays.recordPairing, bind, StateT.bind, selectHost,
        hfind, Except.bind, selectDefault, hdefault, hinsert]
      rfl
    · rw [Write.effect, Book.pair, dif_neg hnew]
      exact h.pairNew hnew machineId keyId

/-- The table once no row is the default. -/
theorem rows_clear (t : Relays) :
    (Table.update t (fun _ r => r.isDefault) fun r => { r with isDefault := false }).rows =
      t.rows.map fun e => (e.1, { e.2 with isDefault := false }) := by
  refine List.map_congr_left fun e _ => ?_
  obtain ⟨id, adminHost, machineId, keyId, isDefault⟩ := e
  cases isDefault <;> rfl

theorem Models.setDefault (h : Models t b) : Keeps .setDefault host t b := by
  cases hfind : t.findHost host with
  | none =>
    rw [Keeps, meaning_unknown hfind (.inl rfl), Write.effect, Book.setDefault,
      dif_neg (h.findHost_eq_none.mp hfind)]
    exact ⟨none, rfl, h⟩
  | some e =>
    obtain ⟨id, r⟩ := e
    obtain ⟨hmem, rfl⟩ := findHost_mem hfind
    generalize hclear : Table.update t (fun _ r => r.isDefault)
      (fun r => { r with isDefault := false }) = cleared
    have hrows := rows_clear t
    rw [hclear] at hrows
    have hnodup : HostsNodup cleared := by
      rw [HostsNodup, Relays.hosts, hrows, List.map_map]
      exact h.hostsNodup
    have hcleared : (id, { r with isDefault := false }) ∈ cleared.rows := by
      rw [hrows]
      exact List.mem_map.mpr ⟨_, hmem, rfl⟩
    have hupdate : update id { r with isDefault := true } cleared =
        .ok ((id, { r with isDefault := true }), cleared.set id { r with isDefault := true }) := by
      refine update_eq hnodup hcleared _ rfl fun e he _ hflag => ?_
      rw [hrows] at he
      obtain ⟨e₀, -, rfl⟩ := List.mem_map.mp he
      cases hflag
    refine keeps_commit (some (id, { r with isDefault := true }))
      (cleared.set id { r with isDefault := true }) ?_ ?_
    · simp only [Write.means, Write.code, Relays.setDefault, bind, StateT.bind, selectHost, hfind,
        Except.bind, clearDefault, hclear, hupdate]
      rfl
    · rw [Write.effect, Book.setDefault, dif_pos (h.mem_hosts hfind)]
      have hset : (cleared.set id { r with isDefault := true }).rows = t.rows.map fun e =>
          (e.1, if e.1 = id then { r with isDefault := true } else
            { e.2 with isDefault := false }) := by
        rw [rows_set, hrows, List.map_map]
        rfl
      refine models_map hset (f := fun p => p) ?_ (fun e he => ?_) fun e he => ?_
      · rw [List.map_id', h.pairings]
      · split
        · rename_i hsame
          rw [h.hostsNodup.row_eq he hmem ((h.hostsNodup.id_iff hmem he).mp hsame)]
          rfl
        · rfl
      · split
        · exact ⟨fun _ => rfl, fun _ => rfl⟩
        · rename_i hother
          refine ⟨fun hflag => (by cases hflag), fun hsame => absurd ?_ hother⟩
          exact (h.hostsNodup.id_iff hmem he).mpr (Option.some.inj hsame).symm

/-- The rows that stay are those of the other pairings. -/
theorem Models.pairings_delete (h : Models t b) (hmem : (id, r) ∈ t.rows) :
    Relays.pairings (Table.delete t fun i _ => i = id) = (b.forget r.adminHost).pairings := by
  change (t.rows.filter _).map _ = b.pairings.filter _
  rw [← h.pairings, Relays.pairings, List.filter_map]
  refine congrArg (List.map _) (List.filter_congr fun e he => ?_)
  rw [Function.comp_apply, ← decide_not, decide_eq_decide]
  exact not_congr (h.hostsNodup.id_iff hmem he)

/-- The oldest of the remaining rows becomes the default, when none of them is. -/
theorem models_promote (hpairings : t.pairings = b.pairings)
    (hclear : ∀ e ∈ t.rows, e.2.isDefault = false)
    (hdefault : b.default = b.pairings.head?.map (·.host)) {next : Nat} {row : Relay}
    (hhead : t.rows.head? = some (next, row)) :
    update next { row with isDefault := true } t =
        .ok ((next, { row with isDefault := true }), t.set next { row with isDefault := true }) ∧
      Models (t.set next { row with isDefault := true }) b := by
  have hmem := List.mem_of_head? hhead
  have hnodup : t.HostsNodup := by
    rw [HostsNodup, hosts_eq hpairings]
    exact b.nodup
  constructor
  · refine update_eq hnodup hmem _ rfl fun e he _ hflag => ?_
    rw [hclear e he] at hflag
    cases hflag
  · have hpairing : b.default = some row.adminHost := by
      rw [hdefault, ← hpairings, pairings, List.head?_map, hhead]
      rfl
    refine models_map (rows_set t next _) (f := fun p => p) ?_ (fun e he => ?_) fun e he => ?_
    · rw [List.map_id', hpairings]
    · split
      · rename_i hsame
        rw [hnodup.row_eq he hmem ((hnodup.id_iff hmem he).mp hsame)]
        rfl
      · rfl
    · rw [hpairing]
      split
      · exact ⟨fun _ => rfl, fun _ => rfl⟩
      · rename_i hother
        rw [hclear e he]
        refine ⟨fun hflag => (by cases hflag), fun hsame => absurd ?_ hother⟩
        exact (hnodup.id_iff hmem he).mpr (Option.some.inj hsame).symm

/-- Without failures, the code of `forget` does what the function of that name does. -/
theorem Models.forgets (h : Models t b) (host : String) : ∃ next t',
    Transaction.meaning (Write.means .forget host) t = (.ok next, t') ∧
      Models t' (b.forget host) ∧ ∀ adminHost, normalizeAdminHost adminHost = .ok host →
        Relays.forget t adminHost = .ok (t', next.map (·.2)) := by
  cases hfind : t.findHost host with
  | none =>
    refine ⟨none, t, meaning_unknown hfind (.inr rfl), ?_, fun adminHost hhost => ?_⟩
    · rw [b.forget_of_notMem (h.findHost_eq_none.mp hfind)]
      exact h
    · simp only [Relays.forget, hhost, Except.map, hfind, Option.map_none]
  | some e =>
    obtain ⟨id, r⟩ := e
    obtain ⟨hmem, rfl⟩ := findHost_mem hfind
    have hpairings := h.pairings_delete hmem
    generalize hrest : Table.delete t (fun i _ => i = id) = rest at hpairings
    have hrows {e : Nat × Relay} (he : e ∈ rest.rows) : e ∈ t.rows ∧ e.1 ≠ id := by
      rw [← hrest] at he
      obtain ⟨he, hne⟩ := List.mem_filter.mp he
      exact ⟨he, by simpa using hne⟩
    cases hflag : r.isDefault with
    | false =>
      have hdefault : b.default ≠ some r.adminHost := by
        rw [Ne, ← h.default _ hmem, hflag]
        exact Bool.false_ne_true
      refine ⟨none, rest, ?_, ⟨hpairings, fun e he => ?_⟩, fun adminHost hhost => ?_⟩
      · simp only [Transaction.meaning, Write.means, Write.code, forgetRelay, bind, StateT.bind,
          selectHost, hfind, Except.bind, deleteById, hrest, hflag, Bool.false_eq_true, if_false]
        rfl
      · rw [Book.default_forget, if_neg hdefault]
        exact h.default e (hrows he).1
      · simp only [Relays.forget, hhost, Except.map, hfind, hrest, hflag, Bool.false_eq_true,
          if_false, Option.map_none]
    | true =>
      have hdefault := (h.default _ hmem).mp hflag
      have hclear (e : Nat × Relay) (he : e ∈ rest.rows) : e.2.isDefault = false := by
        rw [← Bool.not_eq_true, h.default e (hrows he).1, hdefault, Option.some.injEq, eq_comm]
        exact fun hsame => (hrows he).2 ((h.hostsNodup.id_iff hmem (hrows he).1).mpr hsame)
      cases hhead : rest.rows.head? with
      | none =>
        refine ⟨none, rest, ?_, ⟨hpairings, fun e he => ?_⟩, fun adminHost hhost => ?_⟩
        · simp only [Transaction.meaning, Write.means, Write.code, forgetRelay, bind, StateT.bind,
            selectHost, hfind, Except.bind, deleteById, hrest, hflag, if_true, selectOldest, hhead]
          rfl
        · rw [List.head?_eq_none_iff.mp hhead] at he
          cases he
        · simp only [Relays.forget, hhost, Except.map, hfind, hrest, hflag, if_true, promote, hhead,
            Option.map_none]
      | some e =>
        obtain ⟨next, row⟩ := e
        have hpromote : (b.forget r.adminHost).default =
            (b.forget r.adminHost).pairings.head?.map (·.host) := by
          rw [Book.default_forget, if_pos hdefault]
        obtain ⟨hupdate, hmodels⟩ := models_promote hpairings hclear hpromote hhead
        refine ⟨some (next, { row with isDefault := true }),
          rest.set next { row with isDefault := true }, ?_, hmodels, fun adminHost hhost => ?_⟩
        · simp only [Transaction.meaning, Write.means, Write.code, forgetRelay, bind, StateT.bind,
            selectHost, hfind, Except.bind, deleteById, hrest, hflag, if_true, selectOldest, hhead,
            hupdate]
          rfl
        · simp only [Relays.forget, hhost, Except.map, hfind, hrest, hflag, if_true, promote, hhead,
            Option.map_some]

/-- What a write means is its effect on the book. -/
theorem Models.keeps (h : Models t b) (w : Write) (host : String) : Keeps w host t b := by
  cases w with
  | recordPairing machineId keyId => exact h.recordPairing machineId keyId
  | setDefault => exact h.setDefault
  | forget =>
    obtain ⟨next, t', hmeans, hmodels, -⟩ := h.forgets host
    rw [Keeps, hmeans]
    exact ⟨next, rfl, hmodels⟩

/-! ## Sequences of writes -/

/-- A write, the host it was given, and which of its calls fail. -/
structure Step where
  write : Write
  adminHost : String
  fails : Nat → Bool

def Step.run (s : Step) (t : Relays) : Except StoreError (Option (Nat × Relay)) × Relays :=
  s.write.run s.fails s.adminHost t

/-- The table after a sequence of writes. -/
def after (steps : List Step) : Relays := steps.foldl (fun t s => (s.run t).2) ∅

/-- A write is refused its host, or a call of it fails and nothing is changed, or it takes effect. -/
theorem Step.run_cases (s : Step) (t : Relays) :
    (∃ e, normalizeAdminHost s.adminHost = .error e ∧ s.run t = (.error (.host e), t)) ∨
      (s.run t = (.error .db, t) ∧ ∃ i, s.fails i = true) ∨
      ∃ host, normalizeAdminHost s.adminHost = .ok host ∧
        s.run t = Transaction.meaning (s.write.means host) t := by
  rw [Step.run, Write.run]
  cases hhost : normalizeAdminHost s.adminHost with
  | error e => exact .inl ⟨e, rfl, rfl⟩
  | ok host =>
    obtain hmeaning | hfails :=
      Transaction.run_cases (s.write.denotes_code host) s.fails t
    · exact .inr (.inr ⟨host, rfl, hmeaning⟩)
    · exact .inr (.inl hfails)

/-- Every write keeps a book, whether or not it fails. -/
theorem Models.run (h : Models t b) (s : Step) : ∃ b', Models (s.run t).2 b' := by
  obtain ⟨e, -, hrun⟩ | ⟨hrun, -⟩ | ⟨host, -, hrun⟩ := s.run_cases t
  · exact ⟨b, hrun ▸ h⟩
  · exact ⟨b, hrun ▸ h⟩
  · obtain ⟨answer, -, hmodels⟩ := h.keeps s.write host
    exact ⟨_, hrun ▸ hmodels⟩

theorem models_after (steps : List Step) : ∃ b, Models (after steps) b := by
  induction steps using List.reverseRecOn with
  | nil => exact ⟨_, models_empty⟩
  | append_singleton steps s ih =>
    obtain ⟨b, hmodels⟩ := ih
    rw [after, List.foldl_concat]
    exact hmodels.run s

/-- What a write does to a table when it takes effect. The pairings are in the order in which they
were first recorded. -/
def Write.Does (w : Write) (host : String) (t t' : Relays) : Prop :=
  match w with
  | recordPairing machineId keyId =>
    if host ∈ t.hosts then t'.hosts = t.hosts ∧ t'.defaultHost = t.defaultHost
    else t'.pairings = t.pairings ++ [⟨host, machineId, keyId⟩]
  | setDefault =>
    if host ∈ t.hosts then t'.pairings = t.pairings ∧ t'.defaultHost = some host else t' = t
  | forget =>
    t'.pairings = t.pairings.filter (·.host ≠ host) ∧
      t'.defaultHost = if t.defaultHost = some host then t'.hosts.head? else t.defaultHost

theorem Models.does (h : Models t b) (w : Write) (host : String) :
    ∃ answer, (Transaction.meaning (w.means host) t).1 = .ok answer ∧
      w.Does host t (Transaction.meaning (w.means host) t).2 := by
  obtain ⟨answer, hanswer, hmodels⟩ := h.keeps w host
  refine ⟨answer, hanswer, ?_⟩
  cases w with
  | recordPairing machineId keyId =>
    rw [Write.effect, Book.pair] at hmodels
    rw [Write.Does, h.hosts, h.defaultHost, h.pairings]
    split
    · rename_i hmem
      rw [dif_pos hmem] at hmodels
      refine ⟨?_, hmodels.defaultHost⟩
      rw [hmodels.hosts, Book.hosts, Book.pairAgain, Book.map_host_replace]
      rfl
    · rename_i hnew
      rw [dif_neg hnew] at hmodels
      exact hmodels.pairings
  | setDefault =>
    rw [Write.effect, Book.setDefault] at hmodels
    rw [Write.Does, h.hosts, h.pairings]
    split
    · rename_i hmem
      rw [dif_pos hmem] at hmodels
      exact ⟨hmodels.pairings, hmodels.defaultHost⟩
    · rename_i hnot
      rw [meaning_unknown (h.findHost_eq_none.mpr hnot) (.inl rfl)]
  | forget =>
    rw [Write.effect] at hmodels
    rw [Write.Does, h.defaultHost, h.pairings, hmodels.hosts, hmodels.defaultHost, hmodels.pairings,
      Book.default_forget, Book.hosts, List.head?_map]
    exact ⟨rfl, rfl⟩

/-- Some relay is stored just when exactly one is the default, after any writes. The next write
fails and changes nothing, or does what it says. -/
theorem one_default (steps : List Step) (s : Step) :
    ((after steps).rows ≠ [] ↔ (after steps).rows.countP (·.2.isDefault) = 1) ∧
      ((∃ e, normalizeAdminHost s.adminHost = .error e ∧
            s.run (after steps) = (.error (.host e), after steps)) ∨
        (s.run (after steps) = (.error .db, after steps) ∧ ∃ i, s.fails i = true) ∨
        ∃ host answer, normalizeAdminHost s.adminHost = .ok host ∧
          (s.run (after steps)).1 = .ok answer ∧
          s.write.Does host (after steps) (s.run (after steps)).2) := by
  obtain ⟨b, hmodels⟩ := models_after steps
  refine ⟨hmodels.count_default, ?_⟩
  obtain hrefused | hfails | ⟨host, hhost, hrun⟩ := s.run_cases (after steps)
  · exact .inl hrefused
  · exact .inr (.inl hfails)
  · obtain ⟨answer, hanswer, hdoes⟩ := hmodels.does s.write host
    rw [hrun]
    exact .inr (.inr ⟨host, answer, hhost, hanswer, hdoes⟩)

end Relays

end TunnelWeaver.Client
