import TunnelWeaver.Server.Revocation

/-! The tables behind the hostnames (`store/mod.rs`, `store/names.rs`): persons, their machines, the
services the machines declare and the `domains` row of each hostname. Each operation is one
transaction or one statement; a foreign key or a unique index that refuses it leaves the tables as
they were. -/

namespace TunnelWeaver.Server

open Mux (KeyId)
open Proto (toAsciiLowercase isValidServiceName)

/-! ## Names -/

def personMachineMax : Nat := 15

/-- `^[a-z0-9]{1,15}$`. -/
def isValidPersonOrMachine (name : String) : Bool :=
  name ≠ "" && name.utf8ByteSize ≤ personMachineMax &&
    name.toList.all fun c => c.isLower || c.isDigit

/-- `str::strip_prefix`. -/
def stripPrefix (front s : String) : Option String :=
  (front.toList.isPrefixOf? s.toList).map String.ofList

/-! ## The tables -/

structure ServiceRow where
  machineId : Nat
  name : String
  deriving DecidableEq

structure DomainRow where
  name : String
  lastActiveAt : Option Int := none
  serviceId : Option Nat := none
  deriving DecidableEq

/-- One row per key a machine has held; it outlives the machine. -/
structure KeyLogRow where
  keyId : KeyId
  machineId : Nat
  personId : Nat
  addedAt : Int
  retiredAt : Option Int
  /-- Empty while the key is current. -/
  retiredReason : String
  deriving DecidableEq

structure Directory extends MachineStore where
  keyLog : Table KeyLogRow := ∅
  services : Table ServiceRow := ∅
  domains : Table DomainRow := ∅

inductive StoreError
  | invalidName (text : String)
  | conflict (text : String)
  | db
  deriving DecidableEq

namespace Directory

/-! ## Persons, machines and keys -/

def invalidName (what name : String) : StoreError :=
  .invalidName (what ++ " '" ++ name ++ "' must match ^[a-z0-9]\x7b1,15\x7d$")

def createPerson (d : Directory) (accountId : Nat) (name : String) :
    Except StoreError Directory :=
  let lower := toAsciiLowercase name
  if !isValidPersonOrMachine lower then .error (invalidName "person" name)
  else if (d.persons.find? fun _ p => p.accountId = accountId || p.name = lower).isSome then
    .error .db
  else .ok { d with persons := d.persons.insert { accountId, name := lower } }

/-- Open the log row of the key a machine now holds. -/
def openKeyLog (d : Directory) (machineId : Nat) (machine : MachineRow) (now : Int) : Directory :=
  { d with
    keyLog := d.keyLog.insert
      { keyId := machine.keyId, machineId, personId := machine.personId, addedAt := now
        retiredAt := none, retiredReason := "" } }

/-- Close the open log row of a key. -/
def closeKeyLog (d : Directory) (machineId : Nat) (key : KeyId) (reason : String) (now : Int) :
    Directory :=
  { d with
    keyLog := d.keyLog.update
      (fun _ l => l.machineId = machineId && l.keyId = key && l.retiredAt.isNone)
      fun l => { l with retiredAt := some now, retiredReason := reason } }

/-- A key, and a name among the machines of a person, is held once. -/
def createMachine (d : Directory) (person : Nat) (name : String) (key : KeyId) (now : Int) :
    Except StoreError Directory :=
  let lower := toAsciiLowercase name
  if !isValidPersonOrMachine lower then .error (invalidName "machine" name)
  else if (d.persons.get? person).isNone || (d.machines.find? fun _ m =>
      m.keyId = key || (m.personId = person && m.name = lower)).isSome then .error .db
  else
    let machine : MachineRow := { personId := person, name := lower, keyId := key }
    .ok ({ d with machines := d.machines.insert machine }.openKeyLog d.machines.next machine now)

def noMachine (machineId : Nat) : StoreError :=
  .conflict ("no machine with id " ++ toString machineId)

/-- Move a machine onto a new key. -/
def replaceMachineKey (d : Directory) (machineId : Nat) (key : KeyId) (now : Int) :
    Except StoreError Directory :=
  match d.machines.get? machineId with
  | none => .error (noMachine machineId)
  | some current =>
    if (d.machines.find? fun i m => i != machineId && m.keyId = key).isSome then .error .db
    else
      let d := d.closeKeyLog machineId current.keyId "replaced" now
      let machine := { current with keyId := key }
      .ok ({ d with machines := d.machines.set machineId machine }.openKeyLog machineId machine now)

/-- Delete the services of the machines `p` selects; their hostnames stop being owned. -/
def deleteServices (d : Directory) (p : Nat → Bool) : Directory :=
  let gone := fun s => (d.services.get? s).any fun service => p service.machineId
  { d with
    services := d.services.delete fun _ service => p service.machineId
    domains := d.domains.update (fun _ row => row.serviceId.any gone) fun row =>
      { row with serviceId := none } }

/-- Delete the machine that holds a key, with its services. -/
def revokeMachine (d : Directory) (key : KeyId) (now : Int) : Directory :=
  match d.machineByKey key with
  | none => d
  | some (id, _) =>
    let d := d.deleteServices (· = id)
    { d with machines := d.machines.delete fun i _ => i = id }.closeKeyLog id key "revoked" now

/-! ## Renaming -/

/-- Move one `domains` row of a service from the old prefix to the new one. A row that carries the
new name is reused. -/
def renameRow (oldFront newFront : String) (service : Nat) (domains : Table DomainRow)
    (old : Nat × DomainRow) : Table DomainRow :=
  match stripPrefix oldFront old.2.name with
  | none => domains
  | some rest =>
    let newHost := newFront ++ rest
    if newHost = old.2.name then domains
    else
      let moved := match domains.find? fun _ row => row.name = newHost with
        | some (id, _) => domains.update (fun i _ => i = id) fun row =>
          { row with lastActiveAt := old.2.lastActiveAt, serviceId := some service }
        | none => domains.insert
          { name := newHost, lastActiveAt := old.2.lastActiveAt, serviceId := some service }
      moved.delete fun i _ => i = old.1

/-- The `domains` rows linked to a service. -/
def domainsOf (domains : Table DomainRow) (service : Nat) : List (Nat × DomainRow) :=
  domains.rows.filter fun e => e.2.serviceId = some service

def renameService (oldFront newFront : String) (domains : Table DomainRow) (service : Nat) :
    Table DomainRow :=
  (domainsOf domains service).foldl (renameRow oldFront newFront service) domains

/-- The services of a machine. -/
def servicesOf (d : Directory) (machineId : Nat) : List Nat :=
  (d.services.rows.filter fun e => e.2.machineId = machineId).map (·.1)

def renameMachine (d : Directory) (machineId : Nat) (newName : String) :
    Except StoreError (Directory × MachineRow) :=
  let newLower := toAsciiLowercase newName
  if !isValidPersonOrMachine newLower then .error (invalidName "machine" newName)
  else match d.machines.get? machineId with
  | none => .error (noMachine machineId)
  | some current =>
    if current.name = newLower then .ok (d, current)
    else match d.persons.get? current.personId with
    | none => .error (.conflict ("machine " ++ toString machineId ++ " has no person " ++
        toString current.personId))
    | some person =>
      let domains := (d.servicesOf machineId).foldl
        (renameService (person.name ++ "-" ++ current.name ++ "-")
          (person.name ++ "-" ++ newLower ++ "-")) d.domains
      if (d.machines.find? fun i m => i != machineId &&
          (m.personId = current.personId && m.name = newLower)).isSome then .error .db
      else
        let updated := { current with name := newLower }
        .ok ({ d with domains, machines := d.machines.set machineId updated }, updated)

/-! ## Statements of `register_declared_service` -/

def findService (d : Directory) (machineId : Nat) (name : String) : Option Nat :=
  (d.services.find? fun _ s => s.machineId = machineId && s.name = name).map (·.1)

def insertService (d : Directory) (machineId : Nat) (name : String) :
    Except StoreError (Directory × Nat) :=
  if (d.machines.get? machineId).isNone || (d.findService machineId name).isSome then .error .db
  else .ok ({ d with services := d.services.insert { machineId, name } }, d.services.next)

def findDomain (d : Directory) (name : String) : Option (Nat × DomainRow) :=
  d.domains.find? fun _ row => row.name = name

def insertDomain (d : Directory) (name : String) : Except StoreError (Directory × Nat) :=
  if (d.findDomain name).isSome then .error .db
  else .ok ({ d with domains := d.domains.insert { name } }, d.domains.next)

/-- Set the service of a `domains` row that has been read. -/
def linkDomain (d : Directory) (id service : Nat) : Except StoreError Directory :=
  if (d.domains.get? id).isNone || (d.services.get? service).isNone then .error .db
  else .ok { d with
    domains := d.domains.update (fun i _ => i = id) fun row => { row with serviceId := some service } }

def setDomainActive (d : Directory) (name : String) (activeAt : Option Int) : Directory :=
  { d with
    domains := d.domains.update (fun _ row => row.name = toAsciiLowercase name) fun row =>
      { row with lastActiveAt := activeAt } }

/-- The hostname of a service, after the current names. -/
def hostOf (d : Directory) (root : String) (service : Nat) : Option String := do
  let service ← d.services.get? service
  let machine ← d.machines.get? service.machineId
  let person ← d.persons.get? machine.personId
  return flatHostname person.name machine.name service.name root

end Directory

end TunnelWeaver.Server
