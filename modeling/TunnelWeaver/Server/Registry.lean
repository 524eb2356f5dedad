import TunnelWeaver.Proto.Schema
import TunnelWeaver.Server.Metering

/-! The tunnel registry (`tunnel/registry.rs`, `tunnel/identity.rs`): which connection holds each
device key, and which connection each hostname routes to. `register_service` is given by what it
does between its await points; the answers it waits for are arguments. Announcements to the console
and the mirror of the active flags in the store are not modelled. -/

namespace TunnelWeaver.Server

open Mux (KeyId CloseCode)
open Proto (toAsciiLowercase RefusalCode)

/-- A resolved client identity. -/
structure Identity where
  machineId : Int
  personId : Int
  person : String
  machine : String

/-- The hostname of a service, lowercased. -/
def flatHostname (person machine service root : String) : String :=
  toAsciiLowercase person ++ "-" ++ toAsciiLowercase machine ++ "-" ++
    toAsciiLowercase service ++ "." ++ toAsciiLowercase root

def Identity.hostname (i : Identity) (service root : String) : String :=
  flatHostname i.person i.machine service root

/-- `AtomicU64` ids of connections. -/
abbrev ConnectionId := Nat

/-- The channel to a connection's handler, named by the connection. -/
abbrev ProxyTx := ConnectionId

/-- One end of a oneshot channel. -/
abbrev Oneshot := Nat

structure TunnelRoute where
  hostname : String
  service : String
  serviceId : ServiceId
  keyId : KeyId
  proxyTx : ProxyTx
  deriving DecidableEq

/-- `closeTx` is how the relay asks the connection to end itself; `none` once taken. -/
structure ActiveConnection where
  connectionId : ConnectionId
  closeTx : Option Oneshot
  services : List String
  deriving DecidableEq

structure Registry where
  tunnelDomain : String
  metering : Metering := {}
  routes : Map String TunnelRoute := ∅
  connections : Map KeyId ActiveConnection := ∅
  activeHosts : Finset String := ∅
  nextConnId : ConnectionId := 1

namespace Registry

def setActive (r : Registry) (name : String) (active : Bool) : Registry :=
  let lower := toAsciiLowercase name
  { r with activeHosts :=
      if active then insert lower r.activeHosts else r.activeHosts.erase lower }

def isActive (r : Registry) (name : String) : Bool :=
  decide (toAsciiLowercase name ∈ r.activeHosts)

/-- Remove a route, if there is one, and stop metering its service. -/
def dropRoute (now : Int) (r : Registry) (hostname : String) : Registry :=
  match r.routes.lookup hostname with
  | some route => { r with
      routes := r.routes.erase hostname
      metering := r.metering.unregisterService route.serviceId now }
  | none => r

/-- One round of the eviction loops. -/
def evict (now : Int) (r : Registry) (hostname : String) : Registry :=
  (r.dropRoute now hostname).setActive hostname false

/-- A connection already registered under the key is superseded: it is told to close, and its
services are evicted. -/
def registerConnection (r : Registry) (keyId : KeyId) (closeTx : Oneshot) (now : Int) :
    Registry × ConnectionId × Option (Oneshot × CloseCode) :=
  let connId := r.nextConnId
  let r' := { r with
    nextConnId := (connId + 1) % 2 ^ 64
    connections := r.connections.insert keyId ⟨connId, some closeTx, []⟩ }
  match r.connections.lookup keyId with
  | none => (r', connId, none)
  | some old => (old.services.foldl (evict now) r', connId, old.closeTx.map (·, .superseded))

def isConnected (r : Registry) (keyId : KeyId) : Bool := (r.connections.lookup keyId).isSome

/-- Send a close code over the channel of a connection, unless that was done before. The result says
whether the other end was still `listening`. -/
def closeConnection (r : Registry) (keyId : KeyId) (code : CloseCode) (listening : Oneshot → Bool) :
    Registry × Option (Oneshot × CloseCode) × Bool :=
  match r.connections.lookup keyId with
  | none => (r, none, false)
  | some conn => ({ r with connections := r.connections.insert keyId { conn with closeTx := none } },
      conn.closeTx.map (·, code), conn.closeTx.any listening)

/-- The connection registered under the key, if it has that id. -/
def ownConnection (r : Registry) (keyId : KeyId) (connectionId : ConnectionId) :
    Option ActiveConnection :=
  (r.connections.lookup keyId).filter fun conn => decide (conn.connectionId = connectionId)

/-- The route of a hostname, if it belongs to the key. -/
def ownRoute (r : Registry) (keyId : KeyId) (host : String) : Option TunnelRoute :=
  (r.routes.lookup host).filter fun route => decide (route.keyId = keyId)

/-- Unregister a connection, if it is the one registered, and evict its services. -/
def unregisterConnection (r : Registry) (keyId : KeyId) (connectionId : ConnectionId) (now : Int) :
    Registry :=
  match r.ownConnection keyId connectionId with
  | none => r
  | some old => old.services.foldl (evict now) { r with connections := r.connections.erase keyId }

/-- Change the service set of the connection registered under a key. -/
def modifyServices (r : Registry) (keyId : KeyId) (f : ActiveConnection → List String) : Registry :=
  match r.connections.lookup keyId with
  | none => r
  | some conn => { r with
      connections := r.connections.insert keyId { conn with services := f conn } }

def unregisterService (r : Registry) (keyId : KeyId) (hostname : String) (now : Int) : Registry :=
  let lower := toAsciiLowercase hostname
  match r.ownRoute keyId lower with
  | none => r
  | some _ => ((r.dropRoute now lower).setActive lower false).modifyServices keyId fun conn =>
      conn.services.filter (· ≠ lower)

/-! ## Renames -/

/-- The hostnames that route to a key. -/
def hostsOf (r : Registry) (keyId : KeyId) : List String :=
  (r.routes.entries.filter fun e => e.2.keyId = keyId).map (·.1)

/-- Move a route to the hostname the identity gives its service. -/
def moveRoute (r : Registry) (identity : Identity) (old : String) (route : TunnelRoute) : Registry :=
  let r := { r with routes := r.routes.erase old }
  let new := identity.hostname route.service r.tunnelDomain
  let r := if new = old then r else (r.setActive old false).setActive new (r.isActive old)
  { r with routes := r.routes.insert new { route with hostname := new } }

/-- One round of the remapping loop; the number counts the routes moved. -/
def remap (identity : Identity) (x : Registry × Nat) (old : String) : Registry × Nat :=
  match x.1.routes.lookup old with
  | none => x
  | some route => (x.1.moveRoute identity old route, x.2 + 1)

/-- Re-derive the hostnames of a machine that was renamed. -/
def renameMachine (r : Registry) (keyId : KeyId) (identity : Option Identity) : Registry × Nat :=
  match identity with
  | none => (r, 0)
  | some identity =>
    let x := (r.hostsOf keyId).foldl (remap identity) (r, 0)
    (x.1.modifyServices keyId fun _ => x.1.hostsOf keyId, x.2)

/-! ## Registering a service -/

/-- The arguments of a `register_service` call. A handler passes its own connection and channel. -/
structure RegisterCall where
  keyId : KeyId
  connectionId : ConnectionId
  service : String
  proxyTx : ProxyTx

/-- Up to the database: the machine and the hostname to persist. -/
def checkService (r : Registry) (call : RegisterCall) (identity : Option Identity) :
    Except RefusalCode (Int × String) :=
  match identity with
  | none => .error .unauthorized
  | some identity =>
    let host := identity.hostname call.service r.tunnelDomain
    if (r.routes.lookup host).isSome then .error .alreadyRegistered
    else .ok (identity.machineId, host)

/-- From the database to the certificate: the tables. `serviceId` is the row, unless the store
failed. -/
def installService (r : Registry) (call : RegisterCall) (host : String)
    (serviceId : Option ServiceId) (now : Int) : Except RefusalCode Registry :=
  match serviceId with
  | none => .error .other
  | some serviceId =>
    if (r.routes.lookup host).isSome then .error .alreadyRegistered
    else
      let r := { r with
        routes := r.routes.insert host ⟨host, call.service, serviceId, call.keyId, call.proxyTx⟩
        metering := r.metering.registerService serviceId now }
      .ok ((r.setActive host true).modifyServices call.keyId fun conn =>
        if conn.connectionId = call.connectionId then conn.services.insert host
        else conn.services)

/-- After the certificate: the flag says whether the hostname still routes to the key. -/
def settleService (r : Registry) (call : RegisterCall) (host : String) : Registry :=
  r.setActive host (r.ownRoute call.keyId host).isSome

/-- A hostname resolves to its route when the store agrees on the service. -/
def resolve (r : Registry) (hostname : String) (domain : Option (Option ServiceId)) :
    Option TunnelRoute := do
  let serviceId ← ← domain
  (r.routes.lookup (toAsciiLowercase hostname)).filter fun route =>
    decide (route.serviceId = serviceId)

/-! ## Frame lemmas -/

variable (r : Registry) (name : String) (keyId : KeyId) (now : Int)

@[simp] theorem setActive_routes (active : Bool) : (r.setActive name active).routes = r.routes := rfl

@[simp] theorem setActive_connections (active : Bool) :
    (r.setActive name active).connections = r.connections := rfl

@[simp] theorem setActive_metering (active : Bool) :
    (r.setActive name active).metering = r.metering := rfl

@[simp] theorem modifyServices_routes (f : ActiveConnection → List String) :
    (r.modifyServices keyId f).routes = r.routes := by
  unfold modifyServices
  split <;> rfl

@[simp] theorem modifyServices_metering (f : ActiveConnection → List String) :
    (r.modifyServices keyId f).metering = r.metering := by
  unfold modifyServices
  split <;> rfl

@[simp] theorem modifyServices_activeHosts (f : ActiveConnection → List String) :
    (r.modifyServices keyId f).activeHosts = r.activeHosts := by
  unfold modifyServices
  split <;> rfl

theorem modifyServices_connections (f : ActiveConnection → List String) (k : KeyId) :
    (r.modifyServices keyId f).connections.lookup k =
      if k = keyId then (r.connections.lookup k).map fun conn => { conn with services := f conn }
      else r.connections.lookup k := by
  unfold modifyServices
  split
  · rename_i h
    split
    · rename_i heq
      rw [heq, h]
      rfl
    · rfl
  · rename_i conn h
    rw [Map.lookup_insert_ite]
    split
    · rename_i heq
      rw [heq, h]
      rfl
    · rfl

@[simp] theorem dropRoute_connections : (r.dropRoute now name).connections = r.connections := by
  unfold dropRoute
  split <;> rfl

@[simp] theorem dropRoute_activeHosts : (r.dropRoute now name).activeHosts = r.activeHosts := by
  unfold dropRoute
  split <;> rfl

theorem dropRoute_routes (host : String) : (r.dropRoute now name).routes.lookup host =
    if host = name then none else r.routes.lookup host := by
  unfold dropRoute
  split
  · exact Map.lookup_erase_ite ..
  · rename_i h
    split
    · rename_i heq
      rw [heq]
      exact h
    · rfl

theorem foldl_evict_connections (services : List String) :
    (services.foldl (evict now) r).connections = r.connections := by
  induction services generalizing r with
  | nil => rfl
  | cons name services ih => rw [List.foldl_cons, ih, evict, setActive_connections, dropRoute_connections]

theorem foldl_evict_routes (services : List String) (host : String) :
    (services.foldl (evict now) r).routes.lookup host =
      if host ∈ services then none else r.routes.lookup host := by
  induction services generalizing r with
  | nil => simp
  | cons name services ih =>
    rw [List.foldl_cons, ih, evict, setActive_routes, dropRoute_routes]
    by_cases h : host = name <;> simp [h]

variable {r keyId} in
theorem ownConnection_eq_some {connectionId : ConnectionId} {conn : ActiveConnection} :
    r.ownConnection keyId connectionId = some conn ↔
      r.connections.lookup keyId = some conn ∧ conn.connectionId = connectionId := by
  simp [ownConnection, Option.filter_eq_some_iff]

variable {r keyId} in
theorem ownRoute_eq_some {host : String} {route : TunnelRoute} :
    r.ownRoute keyId host = some route ↔
      r.routes.lookup host = some route ∧ route.keyId = keyId := by
  simp [ownRoute, Option.filter_eq_some_iff]

theorem moveRoute_routes (identity : Identity) (old : String) (route : TunnelRoute)
    (host : String) : (r.moveRoute identity old route).routes.lookup host =
      let new := identity.hostname route.service r.tunnelDomain
      if host = new then some { route with hostname := new }
      else if host = old then none else r.routes.lookup host := by
  simp only [moveRoute, Map.lookup_insert_ite]
  split
  · rfl
  · split <;> exact Map.lookup_erase_ite ..

theorem moveRoute_connections (identity : Identity) (old : String) (route : TunnelRoute) :
    (r.moveRoute identity old route).connections = r.connections := by
  simp only [moveRoute]
  split <;> rfl

theorem mem_hostsOf {host : String} {route : TunnelRoute} (h : r.routes.lookup host = some route) :
    host ∈ r.hostsOf route.keyId := by
  refine List.mem_map.mpr ⟨⟨host, route⟩, List.mem_filter.mpr ⟨?_, by simp⟩, rfl⟩
  exact AList.mem_lookup_iff.mp h

end Registry

end TunnelWeaver.Server
