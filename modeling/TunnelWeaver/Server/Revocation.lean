import TunnelWeaver.Lib.Table
import TunnelWeaver.Server.Ownership

/-! Revoking the key of a machine while its client connects: `machine_revoke` and `approve` of
`account/router.rs`, `AccountRuntime::delete_account`, and the handshake of a tunnel, as tasks that
interleave between their store operations and registry calls. -/

namespace TunnelWeaver.Server

open Automaton
open Mux (KeyId CloseCode)

structure PersonRow where
  accountId : Nat
  name : String
  deriving DecidableEq

structure MachineRow where
  personId : Nat
  name : String
  keyId : KeyId
  deriving DecidableEq

/-- The tables the revoking paths read and write. -/
structure MachineStore where
  persons : Table PersonRow := ∅
  machines : Table MachineRow := ∅

namespace MachineStore

def personByAccount (s : MachineStore) (account : Nat) : Option (Nat × PersonRow) :=
  s.persons.find? fun _ p => p.accountId = account

def machineByKey (s : MachineStore) (key : KeyId) : Option (Nat × MachineRow) :=
  s.machines.find? fun _ m => m.keyId = key

/-- The machine with an id, if the person owns it. -/
def ownedMachine (s : MachineStore) (person machine : Nat) : Option MachineRow :=
  (s.machines.get? machine).filter fun m => m.personId = person

def listMachines (s : MachineStore) (person : Nat) : List MachineRow :=
  (s.machines.rows.map (·.2)).filter fun m => m.personId = person

/-- `account_id` and `name` are unique. -/
def createPerson (s : MachineStore) (account : Nat) (name : String) : MachineStore :=
  if (s.persons.find? fun _ p => p.accountId = account || p.name = name).isSome then s
  else { s with persons := s.persons.insert { accountId := account, name } }

/-- `key_id` is unique, and so is a name among the machines of a person. -/
def createMachine (s : MachineStore) (person : Nat) (name : String) (key : KeyId) :
    MachineStore :=
  if (s.persons.get? person).isNone || (s.machines.find? fun _ m =>
      m.keyId = key || (m.personId = person && m.name = name)).isSome then s
  else { s with machines := s.machines.insert { personId := person, name, keyId := key } }

/-- Move a machine onto a new key, unless another machine holds it; whether that was done. -/
def replaceMachineKey (s : MachineStore) (machine : Nat) (key : KeyId) : MachineStore × Bool :=
  match s.machines.get? machine with
  | none => (s, false)
  | some current =>
    if (s.machines.find? fun i m => i != machine && m.keyId = key).isSome then (s, false)
    else ({ s with machines := s.machines.set machine { current with keyId := key } }, true)

/-- Delete the machine that holds a key. -/
def revokeMachine (s : MachineStore) (key : KeyId) : MachineStore :=
  match s.machineByKey key with
  | none => s
  | some (id, _) => { s with machines := s.machines.delete fun i _ => i = id }

/-- Delete the person of an account and its machines. -/
def deleteAccount (s : MachineStore) (account : Nat) : MachineStore where
  persons := s.persons.delete fun _ p => p.accountId = account
  machines := s.machines.delete fun _ m =>
    (s.persons.get? m.personId).any fun p => p.accountId = account

end MachineStore

/-- `machine_revoke` after it has read the key. -/
inductive RevokePhase
  | close
  | delete
  | done
  deriving DecidableEq

structure Revoke where
  key : KeyId
  phase : RevokePhase
  deriving DecidableEq

/-- `delete_account` after it has read the keys; `closing` holds those still to close. -/
inductive DeletionPhase
  | delete
  | closing (keys : List KeyId)
  deriving DecidableEq

structure Deletion where
  account : Nat
  keys : List KeyId
  phase : DeletionPhase
  deriving DecidableEq

/-- `approve` of a re-pairing after the ownership check. -/
structure Rekey where
  machine : Nat
  key : KeyId
  done : Bool
  deriving DecidableEq

/-- A handshake whose key the verifier has found. -/
structure Handshake where
  key : KeyId
  done : Bool
  deriving DecidableEq

structure Plane where
  store : MachineStore := {}
  registry : Registry
  handshakes : Table Handshake := ∅
  revokes : Table Revoke := ∅
  deletions : Table Deletion := ∅
  rekeys : Table Rekey := ∅

inductive PlaneAction
  | createPerson (account : Nat) (name : String)
  | createMachine (person : Nat) (name : String) (key : KeyId)
  /-- The verifier looks the key up. -/
  | lookup (key : KeyId)
  /-- The handshake ends; `ok` is whether the client is authenticated. -/
  | register (task : Nat) (ok : Bool) (closeTx : Oneshot) (now : Int)
  /-- The driver of a connection has seen it close. -/
  | unregister (key : KeyId) (connection : ConnectionId) (now : Int)
  | machineRevoke (account machine : Nat)
  | revokeClose (task : Nat)
  | revokeDelete (task : Nat)
  | deleteAccount (account : Nat)
  | deletionDelete (task : Nat)
  | deletionClose (task : Nat)
  | approveRekey (account machine : Nat) (key : KeyId)
  | rekeyReplace (task : Nat)
  deriving DecidableEq

namespace Plane

def closeConnection (w : Plane) (key : KeyId) : Plane :=
  { w with registry := (w.registry.closeConnection key .keyRevoked fun _ => true).1 }

/-- The verifier's lookup begins a handshake. -/
def lookup (w : Plane) (key : KeyId) : Plane :=
  match w.store.machineByKey key with
  | none => w
  | some _ => { w with handshakes := w.handshakes.insert { key, done := false } }

def register (w : Plane) (task : Nat) (h : Handshake) (ok : Bool) (closeTx : Oneshot)
    (now : Int) : Plane :=
  { w with
    registry := if ok then (w.registry.registerConnection h.key closeTx now).1 else w.registry
    handshakes := w.handshakes.set task { h with done := true } }

/-- The machine of an account's person. -/
def findOwned (w : Plane) (account machine : Nat) : Option MachineRow := do
  let (person, _) ← w.store.personByAccount account
  w.store.ownedMachine person machine

def machineRevoke (w : Plane) (account machine : Nat) : Plane :=
  match w.findOwned account machine with
  | none => w
  | some m => { w with revokes := w.revokes.insert { key := m.keyId, phase := .close } }

def deleteAccount (w : Plane) (account : Nat) : Plane :=
  let machines := match w.store.personByAccount account with
    | some (person, _) => w.store.listMachines person
    | none => []
  { w with
    deletions := w.deletions.insert
      { account, keys := machines.map (·.keyId), phase := .delete } }

def approveRekey (w : Plane) (account machine : Nat) (key : KeyId) : Plane :=
  match w.findOwned account machine with
  | none => w
  | some _ => { w with rekeys := w.rekeys.insert { machine, key, done := false } }

def step (w : Plane) : PlaneAction → Option Plane
  | .createPerson account name => some { w with store := w.store.createPerson account name }
  | .createMachine person name key => some { w with store := w.store.createMachine person name key }
  | .lookup key => some (w.lookup key)
  | .register task ok closeTx now =>
    (w.handshakes.get? task).bind fun h =>
      if h.done then none else some (w.register task h ok closeTx now)
  | .unregister key connection now => some { w with
      registry := w.registry.unregisterConnection key connection now }
  | .machineRevoke account machine => some (w.machineRevoke account machine)
  | .revokeClose task =>
    (w.revokes.get? task).bind fun r =>
      if r.phase = .close then some { w.closeConnection r.key with
        revokes := w.revokes.set task { r with phase := .delete } }
      else none
  | .revokeDelete task =>
    (w.revokes.get? task).bind fun r =>
      if r.phase = .delete then some { w with
        store := w.store.revokeMachine r.key
        revokes := w.revokes.set task { r with phase := .done } }
      else none
  | .deleteAccount account => some (w.deleteAccount account)
  | .deletionDelete task =>
    (w.deletions.get? task).bind fun d =>
      if d.phase = .delete then some { w with
        store := w.store.deleteAccount d.account
        deletions := w.deletions.set task { d with phase := .closing d.keys } }
      else none
  | .deletionClose task =>
    (w.deletions.get? task).bind fun d => match d.phase with
      | .closing (key :: keys) => some { w.closeConnection key with
          deletions := w.deletions.set task { d with phase := .closing keys } }
      | _ => none
  | .approveRekey account machine key => some (w.approveRekey account machine key)
  | .rekeyReplace task =>
    (w.rekeys.get? task).bind fun r =>
      if r.done then none else some { w with
        store := (w.store.replaceMachineKey r.machine r.key).1
        rekeys := w.rekeys.set task { r with done := true } }

/-- Some machine holds the key. -/
def held (w : Plane) (key : KeyId) : Bool := (w.store.machineByKey key).isSome

/-- A connection of the key is registered and has not been asked to close. -/
def serving (w : Plane) (key : KeyId) : Bool :=
  (w.registry.connections.lookup key).any (·.closeTx.isSome)

/-- A `delete_account` call that has deleted its account still has to close the key. -/
def pending (w : Plane) (key : KeyId) : Bool :=
  (w.deletions.find? fun _ d => match d.phase with
    | .closing keys => keys.contains key
    | .delete => false).isSome

/-- When each step may be taken: a client is registered while a machine holds its key, or before a
deletion closes it; a machine is revoked, or moved off a key, while no connection of the key is
left open; an account is deleted when the keys that were read include those of its machines with a
connection. -/
def timely (w : Plane) : PlaneAction → Bool
  | .register task ok _ _ => !ok || (w.handshakes.get? task).all fun h =>
      w.held h.key || w.pending h.key
  | .revokeDelete task => (w.revokes.get? task).all fun r => !w.serving r.key
  | .deletionDelete task => (w.deletions.get? task).all fun d => w.store.machines.rows.all fun e =>
      !((w.store.persons.get? e.2.personId).any fun p => p.accountId = d.account) ||
        !w.serving e.2.keyId || d.keys.contains e.2.keyId
  | .rekeyReplace task => (w.rekeys.get? task).all fun r =>
      (w.store.machines.get? r.machine).all fun m => !w.serving m.keyId || m.keyId = r.key
  | _ => true

/-- Every connection that is open belongs to a machine, or is about to be closed. -/
def Accounted (w : Plane) : Prop :=
  ∀ key, w.serving key = true → w.held key = true ∨ w.pending key = true

variable {w w' : Plane} {a : PlaneAction} {key : KeyId}

theorem held_iff : w.held key = true ↔ ∃ i m, w.store.machines.get? i = some m ∧ m.keyId = key := by
  constructor
  · intro h
    obtain ⟨e, he⟩ := Option.isSome_iff_exists.mp h
    obtain ⟨hget, hkey⟩ := Table.find?_some he
    exact ⟨e.1, e.2, hget, of_decide_eq_true hkey⟩
  · rintro ⟨i, m, hget, hkey⟩
    by_contra hnone
    have hfalse := Table.find?_eq_none.mp (Option.not_isSome_iff_eq_none.mp hnone) hget
    exact absurd hkey (of_decide_eq_false hfalse)

theorem pending_iff : w.pending key = true ↔
    ∃ i d keys, w.deletions.get? i = some d ∧ d.phase = .closing keys ∧ key ∈ keys := by
  constructor
  · intro h
    obtain ⟨e, he⟩ := Option.isSome_iff_exists.mp h
    obtain ⟨hget, hsel⟩ := Table.find?_some he
    cases hphase : e.2.phase with
    | delete => simp [hphase] at hsel
    | closing keys => exact ⟨e.1, e.2, keys, hget, hphase, by simpa [hphase] using hsel⟩
  · rintro ⟨i, d, keys, hget, hphase, hkey⟩
    by_contra hnone
    have hfalse := Table.find?_eq_none.mp (Option.not_isSome_iff_eq_none.mp hnone) hget
    simp [hphase, hkey] at hfalse

theorem serving_iff : w.serving key = true ↔
    ∃ conn, w.registry.connections.lookup key = some conn ∧ conn.closeTx.isSome := by
  rw [serving, Option.any_eq_true]

/-! ## What a step changes -/

theorem Accounted.of (h : w.Accounted)
    (hserving : ∀ {key}, w'.serving key = true → w.serving key = true)
    (hheld : ∀ {key}, w'.serving key = true → w.held key = true →
      w'.held key = true ∨ w'.pending key = true)
    (hpending : ∀ {key}, w'.serving key = true → w.pending key = true → w'.pending key = true) :
    w'.Accounted := by
  intro key hs
  rcases h key (hserving hs) with hh | hp
  · exact hheld hs hh
  · exact .inr (hpending hs hp)

theorem serving_closeConnection {key' : KeyId} :
    (w.closeConnection key).serving key' = true ↔ key' ≠ key ∧ w.serving key' = true := by
  rw [serving_iff, serving_iff, closeConnection, Registry.closeConnection]
  split
  · rename_i hnone
    constructor
    · rintro ⟨conn, hconn, hopen⟩
      refine ⟨?_, conn, hconn, hopen⟩
      rintro rfl
      rw [hnone] at hconn
      cases hconn
    · rintro ⟨_, hconn⟩
      exact hconn
  · simp only [Map.lookup_insert_ite]
    constructor
    · rintro ⟨conn, hconn, hopen⟩
      split at hconn
      · cases hconn
        cases hopen
      · rename_i hne
        exact ⟨hne, conn, hconn, hopen⟩
    · rintro ⟨hne, conn, hconn, hopen⟩
      exact ⟨conn, by rw [if_neg hne, hconn], hopen⟩

theorem serving_register {closeTx : Oneshot} {now : Int} {registry : Registry} {key' : KeyId}
    (hr : registry = (w.registry.registerConnection key closeTx now).1)
    (h : { w with registry }.serving key' = true) : key' = key ∨ w.serving key' = true := by
  subst hr
  rw [serving_iff] at h
  obtain ⟨conn, hconn, hopen⟩ := h
  by_cases hk : key' = key
  · exact .inl hk
  · refine .inr (serving_iff.mpr ⟨conn, ?_, hopen⟩)
    rw [← hconn, Registry.registerConnection]
    dsimp only
    split
    · rw [Map.lookup_insert_ite, if_neg hk]
    · rw [Registry.foldl_evict_connections, Map.lookup_insert_ite, if_neg hk]

theorem serving_unregister {connection : ConnectionId} {now : Int} {key' : KeyId}
    (h : { w with registry := w.registry.unregisterConnection key connection now }.serving key' =
      true) : w.serving key' = true := by
  rw [serving_iff] at h ⊢
  obtain ⟨conn, hconn, hopen⟩ := h
  refine ⟨conn, ?_, hopen⟩
  rw [Registry.unregisterConnection] at hconn
  dsimp only at hconn
  split at hconn
  · exact hconn
  · rw [Registry.foldl_evict_connections, Map.lookup_erase_ite] at hconn
    split at hconn
    · cases hconn
    · exact hconn

/-- The machines stay, or grow. -/
theorem held_of_machines {store : MachineStore}
    (hm : ∀ {i m}, w.store.machines.get? i = some m → store.machines.get? i = some m)
    (h : w.held key = true) : { w with store }.held key = true := by
  obtain ⟨i, m, hi, hkey⟩ := held_iff.mp h
  exact held_iff.mpr ⟨i, m, hm hi, hkey⟩

theorem machines_createPerson {s : MachineStore} (account : Nat) (name : String) :
    (s.createPerson account name).machines = s.machines := by
  unfold MachineStore.createPerson
  split <;> rfl

theorem machines_createMachine {s : MachineStore} {person i : Nat} {name : String} {m : MachineRow}
    (h : s.machines.get? i = some m) :
    (s.createMachine person name key).machines.get? i = some m := by
  unfold MachineStore.createMachine
  split
  · exact h
  · dsimp only
    rw [Table.get?_insert, if_neg (Table.lt_next h).ne, h]

theorem Accounted.revokeDelete (h : w.Accounted) {r : Revoke} {revokes : Table Revoke}
    (hguard : w.serving r.key = false) :
    Accounted { w with store := w.store.revokeMachine r.key, revokes } := by
  refine h.of id (fun {key} hs hh => ?_) (fun _ hp => hp)
  obtain ⟨i, m, hi, rfl⟩ := held_iff.mp hh
  refine .inl (held_iff.mpr ⟨i, m, ?_, rfl⟩)
  dsimp only [MachineStore.revokeMachine]
  split
  · exact hi
  · rename_i j found hfound
    obtain ⟨hget, hkey⟩ := Table.find?_some hfound
    dsimp only at hget ⊢
    rw [Table.get?_delete, hi]
    refine Option.filter_eq_some_iff.mpr ⟨rfl, ?_⟩
    -- A machine that is deleted holds the revoked key, which no open connection has.
    have hne : i ≠ j := by
      rintro rfl
      rw [hget, Option.some.injEq] at hi
      rw [← hi, of_decide_eq_true hkey] at hs
      have hs : w.serving r.key = true := hs
      rw [hguard] at hs
      cases hs
    simpa using hne

theorem Accounted.deletionDelete (h : w.Accounted) {task : Nat} {d : Deletion}
    (hd : w.deletions.get? task = some d) (hphase : d.phase = .delete)
    (hguard : w.timely (.deletionDelete task) = true) :
    Accounted { w with
      store := w.store.deleteAccount d.account
      deletions := w.deletions.set task { d with phase := .closing d.keys } } := by
  refine h.of id (fun {key} hs hh => ?_) (fun {key} _ hp => ?_)
  · obtain ⟨i, m, hi, rfl⟩ := held_iff.mp hh
    by_cases howned : (w.store.persons.get? m.personId).any fun p => p.accountId = d.account
    · refine .inr (pending_iff.mpr ⟨task, { d with phase := .closing d.keys }, d.keys, ?_, rfl, ?_⟩)
      · dsimp only
        rw [Table.get?_set, if_pos rfl, hd]
        rfl
      · simp only [timely, hd, Option.all_some, List.all_eq_true] at hguard
        have hrow := hguard (i, m) (Table.get?_eq_some.mp hi)
        have hs : w.serving m.keyId = true := hs
        simpa [howned, hs] using hrow
    · refine .inl (held_iff.mpr ⟨i, m, ?_, rfl⟩)
      dsimp only [MachineStore.deleteAccount]
      rw [Table.get?_delete, hi]
      refine Option.filter_eq_some_iff.mpr ⟨rfl, ?_⟩
      simpa using howned
  · obtain ⟨i, d', keys, hget, hclosing, hkey⟩ := pending_iff.mp hp
    refine pending_iff.mpr ⟨i, d', keys, ?_, hclosing, hkey⟩
    dsimp only
    rw [Table.get?_set, if_neg, hget]
    rintro rfl
    rw [hd, Option.some.injEq] at hget
    rw [← hget, hphase] at hclosing
    cases hclosing

theorem Accounted.deletionClose (h : w.Accounted) {task : Nat} {d : Deletion} {keys : List KeyId}
    (hd : w.deletions.get? task = some d) (hphase : d.phase = .closing (key :: keys)) :
    Accounted { w.closeConnection key with
      deletions := w.deletions.set task { d with phase := .closing keys } } := by
  have hserving {key' : KeyId} (hs : { w.closeConnection key with
      deletions := w.deletions.set task { d with phase := .closing keys } }.serving key' = true) :
      key' ≠ key ∧ w.serving key' = true := serving_closeConnection.mp hs
  refine h.of (fun hs => (hserving hs).2) (fun _ hh => .inl hh) (fun {key'} hs hp => ?_)
  obtain ⟨i, d', keys', hget, hclosing, hkey⟩ := pending_iff.mp hp
  by_cases hi : i = task
  · subst hi
    rw [hd, Option.some.injEq] at hget
    rw [← hget, hphase, DeletionPhase.closing.injEq] at hclosing
    refine pending_iff.mpr ⟨i, { d with phase := .closing keys }, keys, ?_, rfl, ?_⟩
    · dsimp only
      rw [Table.get?_set, if_pos rfl, hd]
      rfl
    · rw [← hclosing, List.mem_cons] at hkey
      exact hkey.resolve_left (hserving hs).1
  · refine pending_iff.mpr ⟨i, d', keys', ?_, hclosing, hkey⟩
    dsimp only
    rw [Table.get?_set, if_neg hi, hget]

theorem Accounted.rekeyReplace (h : w.Accounted) {task : Nat} {r : Rekey} {rekeys : Table Rekey}
    (hr : w.rekeys.get? task = some r) (hguard : w.timely (.rekeyReplace task) = true) :
    Accounted { w with store := (w.store.replaceMachineKey r.machine r.key).1, rekeys } := by
  refine h.of id (fun {key} hs hh => ?_) (fun _ hp => hp)
  obtain ⟨i, m, hi, rfl⟩ := held_iff.mp hh
  left
  rw [held_iff]
  dsimp only [MachineStore.replaceMachineKey]
  split
  · exact ⟨i, m, hi, rfl⟩
  rename_i current hcurrent
  split
  · exact ⟨i, m, hi, rfl⟩
  dsimp only
  by_cases hmachine : i = r.machine
  · subst hmachine
    rw [hcurrent, Option.some.injEq] at hi
    subst hi
    refine ⟨r.machine, { current with keyId := r.key }, ?_, ?_⟩
    · rw [Table.get?_set, if_pos rfl, hcurrent]
      rfl
    · have hs : w.serving current.keyId = true := hs
      simp only [timely, hr, hcurrent, Option.all_some, hs, Bool.not_true, Bool.false_or,
        decide_eq_true_eq] at hguard
      exact hguard.symm
  · exact ⟨i, m, by rw [Table.get?_set, if_neg hmachine, hi], rfl⟩

theorem step_accounted (h : w.Accounted) (hguard : w.timely a = true)
    (hstep : w.step a = some w') : w'.Accounted := by
  cases a with
  | createPerson account name =>
    cases hstep
    refine h.of id (fun _ hh => .inl (held_of_machines (fun hi => ?_) hh)) (fun _ hp => hp)
    rwa [machines_createPerson]
  | createMachine person name key =>
    cases hstep
    exact h.of id (fun _ hh => .inl (held_of_machines machines_createMachine hh)) (fun _ hp => hp)
  | lookup key =>
    cases hstep
    unfold lookup
    split <;> exact h
  | register task ok closeTx now =>
    obtain ⟨x, hx, hreg⟩ := Option.bind_eq_some_iff.mp hstep
    split at hreg <;> cases hreg
    cases ok with
    | false => exact h
    | true =>
      intro key hs
      rcases serving_register rfl hs with rfl | hs
      · have hkey : w.held x.key = true ∨ w.pending x.key = true := by
          simpa [timely, hx] using hguard
        exact hkey
      · exact h key hs
  | unregister key connection now =>
    cases hstep
    exact h.of serving_unregister (fun _ hh => .inl hh) (fun _ hp => hp)
  | machineRevoke account machine =>
    cases hstep
    unfold machineRevoke
    split <;> exact h
  | revokeClose task =>
    obtain ⟨r, hr, hclose⟩ := Option.bind_eq_some_iff.mp hstep
    split at hclose <;> cases hclose
    exact h.of (fun hs => (serving_closeConnection.mp hs).2) (fun _ hh => .inl hh) (fun _ hp => hp)
  | revokeDelete task =>
    obtain ⟨r, hr, hdelete⟩ := Option.bind_eq_some_iff.mp hstep
    split at hdelete <;> cases hdelete
    exact h.revokeDelete (by simpa [timely, hr] using hguard)
  | deleteAccount account =>
    cases hstep
    refine h.of id (fun _ hh => .inl hh) (fun {key} _ hp => ?_)
    obtain ⟨i, d, keys, hget, hclosing, hkey⟩ := pending_iff.mp hp
    refine pending_iff.mpr ⟨i, d, keys, ?_, hclosing, hkey⟩
    dsimp only [deleteAccount]
    rw [Table.get?_insert, if_neg (Table.lt_next hget).ne, hget]
  | deletionDelete task =>
    obtain ⟨d, hd, hdelete⟩ := Option.bind_eq_some_iff.mp hstep
    split at hdelete
    · rename_i hphase
      cases hdelete
      exact h.deletionDelete hd hphase hguard
    · cases hdelete
  | deletionClose task =>
    obtain ⟨d, hd, hclose⟩ := Option.bind_eq_some_iff.mp hstep
    split at hclose
    · rename_i hphase
      cases hclose
      exact h.deletionClose hd hphase
    · cases hclose
  | approveRekey account machine key =>
    cases hstep
    unfold approveRekey
    split <;> exact h
  | rekeyReplace task =>
    obtain ⟨r, hr, hreplace⟩ := Option.bind_eq_some_iff.mp hstep
    split at hreplace <;> cases hreplace
    exact h.rekeyReplace hr hguard

/-- A deletion that has deleted its account has closed all its keys. -/
def Deletion.returned (d : Deletion) : Bool :=
  match d.phase with
  | .closing keys => keys.isEmpty
  | .delete => true

/-- No `delete_account` call has a connection left to close. -/
def Returned (w : Plane) : Prop := ∀ e ∈ w.deletions.rows, Deletion.returned e.2 = true

/-- The driver of every connection that was asked to close has deregistered it. -/
def Drained (w : Plane) : Prop := ∀ e ∈ w.registry.connections.entries, e.2.closeTx.isSome

instance : Decidable w.Returned :=
  inferInstanceAs (Decidable (∀ e ∈ w.deletions.rows, Deletion.returned e.2 = true))

instance : Decidable w.Drained :=
  inferInstanceAs (Decidable (∀ e ∈ w.registry.connections.entries, e.2.closeTx.isSome = true))

/-- In every run whose steps are timely: once the deletions have returned and the connections that
were asked to close are gone, every registered connection is that of a key some machine holds. -/
theorem revocation_complete {domain : String} {acts : List PlaneAction}
    (hm : Meets step (fun w a => w.timely a = true) { registry := { tunnelDomain := domain } } acts)
    (h : run step { registry := { tunnelDomain := domain } } acts = some w)
    (hreturned : w.Returned) (hdrained : w.Drained) {conn : ActiveConnection}
    (hconn : w.registry.connections.lookup key = some conn) :
    ∃ i m, w.store.machines.get? i = some m ∧ m.keyId = key := by
  have hinit : Accounted { registry := { tunnelDomain := domain } } := by
    intro key hs
    cases hs
  have hw : w.Accounted := run_invariant_of_meets step_accounted hm hinit h
  have hopen : conn.closeTx.isSome := hdrained ⟨key, conn⟩ (AList.mem_lookup_iff.mp hconn)
  rcases hw key (serving_iff.mpr ⟨conn, hconn, hopen⟩) with hheld | hpending
  · exact held_iff.mp hheld
  · obtain ⟨i, d, keys, hget, hclosing, hkey⟩ := pending_iff.mp hpending
    have hempty := hreturned (i, d) (Table.get?_eq_some.mp hget)
    rw [Deletion.returned, hclosing, List.isEmpty_iff] at hempty
    rw [hempty] at hkey
    cases hkey

namespace Sample

def keyId (n : UInt8) : KeyId := .ed25519 ⟨List.replicate 32 n, by simp⟩

def start : Plane := { registry := { tunnelDomain := "t.example" } }

/-- A machine is paired and its client connects. -/
def connected : List PlaneAction :=
  [.createPerson 1 "ann", .createMachine 1 "laptop" (keyId 1), .lookup (keyId 1),
   .register 1 true 7 0]

/-- A second machine is paired, connects and is revoked while nothing else happens. -/
def revoked : List PlaneAction :=
  connected ++ [.createMachine 1 "desktop" (keyId 2), .lookup (keyId 2), .register 2 true 8 1,
    .machineRevoke 1 2, .revokeClose 1, .revokeDelete 1, .unregister (keyId 2) 2 3]

/-- The machine is paired again, under a new key. -/
def paired : List PlaneAction :=
  connected ++ [.approveRekey 1 1 (keyId 2), .rekeyReplace 1]

/-- The client reconnects between the close and the delete of a revocation. -/
def reconnected : List PlaneAction :=
  connected ++ [.machineRevoke 1 1, .revokeClose 1, .unregister (keyId 1) 1 2, .lookup (keyId 1),
    .register 2 true 8 3, .revokeDelete 1]

end Sample

/-- The connection that is left belongs to the machine that is left. -/
theorem revocation_complete_revoked : ∃ w conn,
    run step Sample.start Sample.revoked = some w ∧ w.Returned ∧ w.Drained ∧
    w.registry.connections.lookup (Sample.keyId 1) = some conn ∧
    ∃ i m, w.store.machines.get? i = some m ∧ m.keyId = Sample.keyId 1 := by
  have hm : Meets step (fun w a => w.timely a = true) Sample.start Sample.revoked := by
    decide +kernel
  refine ⟨_, _, rfl, by decide +kernel, by decide +kernel, rfl, ?_⟩
  exact revocation_complete hm rfl (by decide +kernel) (by decide +kernel) rfl

/-- A key that no machine holds any more keeps its connection: the machine was paired under a new
key, or revoked while the client reconnected. -/
theorem revocation_missed :
    (∃ w conn, run step Sample.start Sample.paired = some w ∧ w.Returned ∧ w.Drained ∧
      w.registry.connections.lookup (Sample.keyId 1) = some conn ∧
      w.held (Sample.keyId 1) = false) ∧
    (∃ w conn, run step Sample.start Sample.reconnected = some w ∧ w.Returned ∧ w.Drained ∧
      w.registry.connections.lookup (Sample.keyId 1) = some conn ∧
      w.held (Sample.keyId 1) = false) := by
  refine ⟨⟨_, _, rfl, ?_, ?_, rfl, rfl⟩, ⟨_, _, rfl, ?_, ?_, rfl, rfl⟩⟩
  all_goals decide +kernel

end Plane

end TunnelWeaver.Server
