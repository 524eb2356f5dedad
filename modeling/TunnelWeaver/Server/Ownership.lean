import TunnelWeaver.Lib.Automaton
import TunnelWeaver.Server.Registry

/-! Runs of the registry: connections come and go and services are registered and released in any
order, with any number of `register_service` calls waiting at their await points. A route belongs to
the connection registered under its key as long as every call that updates the tables still speaks
for that connection. -/

namespace TunnelWeaver.Server

open Mux (KeyId CloseCode)
open Proto (RefusalCode)
open Automaton (run Meets run_invariant_of_meets)

/-- What a `register_service` call waits for. -/
inductive RegisterStage where
  | identity
  | store (machineId : Int) (host : String)
  | certificate (host : String)

structure RunningCall where
  call : Registry.RegisterCall
  stage : RegisterStage

/-- An answer a call waits for. -/
inductive Reply where
  | identity (identity : Option Identity)
  | persisted (serviceId : Option ServiceId)
  | certified

/-- A call goes on waiting, or returns. -/
inductive Progress where
  | waiting (x : RunningCall)
  | returned (result : Except RefusalCode String)

/-- Run a call from one await point to the next. -/
def RunningCall.resume (x : RunningCall) (r : Registry) (now : Int) :
    Reply → Option (Registry × Progress)
  | .identity identity =>
    match x.stage with
    | .identity =>
      match r.checkService x.call identity with
      | .error code => some (r, .returned (.error code))
      | .ok (machineId, host) => some (r, .waiting { x with stage := .store machineId host })
    | _ => none
  | .persisted serviceId =>
    match x.stage with
    | .store _ host =>
      match r.installService x.call host serviceId now with
      | .error code => some (r, .returned (.error code))
      | .ok r => some (r, .waiting { x with stage := .certificate host })
    | _ => none
  | .certified =>
    match x.stage with
    | .certificate host => some (r.settleService x.call host, .returned (.ok host))
    | _ => none

/-- What a call does between two await points. -/
inductive Resumes (x : RunningCall) (r : Registry) (now : Int) : Reply → Registry → Progress → Prop
  | refused {reply code} : Resumes x r now reply r (.returned (.error code))
  | checked {identity machineId host} : x.stage = .identity →
    r.checkService x.call identity = .ok (machineId, host) →
    Resumes x r now (.identity identity) r (.waiting { x with stage := .store machineId host })
  | installed {id machineId host r'} : x.stage = .store machineId host →
    r.installService x.call host (some id) now = .ok r' →
    Resumes x r now (.persisted (some id)) r' (.waiting { x with stage := .certificate host })
  | settled {host} : x.stage = .certificate host →
    Resumes x r now .certified (r.settleService x.call host) (.returned (.ok host))

theorem RunningCall.resumes {x : RunningCall} {r r' : Registry} {now : Int} {reply : Reply}
    {p : Progress} (H : x.resume r now reply = some (r', p)) : Resumes x r now reply r' p := by
  obtain ⟨call, stage⟩ := x
  cases reply with
  | identity identity =>
    cases stage with
    | identity =>
      simp only [resume] at H
      split at H
      · cases H
        exact .refused
      · rename_i h
        cases H
        exact .checked rfl h
    | store | certificate => cases H
  | persisted serviceId =>
    cases stage with
    | store machineId host =>
      simp only [resume] at H
      split at H
      · cases H
        exact .refused
      · rename_i h
        cases H
        cases serviceId with
        | none => cases h
        | some id => exact .installed rfl h
    | identity | certificate => cases H
  | certified =>
    cases stage with
    | certificate host =>
      cases H
      exact .settled rfl
    | identity | store => cases H

/-- Keep the call, or forget it once it has returned. -/
def Progress.record (n : Nat) (calls : Map Nat RunningCall) : Progress → Map Nat RunningCall
  | .waiting x => calls.insert n x
  | .returned _ => calls.erase n

/-- The registry and the `register_service` calls that are running. -/
structure RegistryRun where
  registry : Registry
  calls : Map Nat RunningCall := ∅

inductive RegistryAction where
  | registerConnection (keyId : KeyId) (closeTx : Oneshot) (now : Int)
  | unregisterConnection (keyId : KeyId) (connectionId : ConnectionId) (now : Int)
  | unregisterService (keyId : KeyId) (hostname : String) (now : Int)
  | closeConnection (keyId : KeyId) (code : CloseCode)
  | renameMachine (keyId : KeyId) (identity : Option Identity)
  /-- The handler of a connection calls `register_service`. -/
  | registerService (n : Nat) (keyId : KeyId) (connectionId : ConnectionId) (service : String)
  | resume (n : Nat) (reply : Reply) (now : Int)

namespace RegistryRun

def init (tunnelDomain : String) : RegistryRun := { registry := { tunnelDomain } }

def step (s : RegistryRun) : RegistryAction → Option RegistryRun
  | .registerConnection keyId closeTx now =>
    some { s with registry := (s.registry.registerConnection keyId closeTx now).1 }
  | .unregisterConnection keyId connectionId now =>
    some { s with registry := s.registry.unregisterConnection keyId connectionId now }
  | .unregisterService keyId hostname now =>
    some { s with registry := s.registry.unregisterService keyId hostname now }
  | .closeConnection keyId code =>
    some { s with registry := (s.registry.closeConnection keyId code fun _ => true).1 }
  | .renameMachine keyId identity =>
    some { s with registry := (s.registry.renameMachine keyId identity).1 }
  | .registerService n keyId connectionId service =>
    if (s.calls.lookup n).isSome then none
    else some { s with
      calls := s.calls.insert n ⟨⟨keyId, connectionId, service, connectionId⟩, .identity⟩ }
  | .resume n reply now =>
    match s.calls.lookup n with
    | none => none
    | some x =>
      match x.resume s.registry now reply with
      | none => none
      | some (registry, p) => some ⟨registry, p.record n s.calls⟩

theorem step_resume {s s' : RegistryRun} {n : Nat} {reply : Reply} {now : Int}
    (H : s.step (.resume n reply now) = some s') : ∃ x r' p, s.calls.lookup n = some x ∧
      Resumes x s.registry now reply r' p ∧ s' = ⟨r', p.record n s.calls⟩ := by
  simp only [step] at H
  split at H
  · cases H
  · rename_i x hx
    split at H
    · cases H
    · rename_i r' p h
      cases H
      exact ⟨x, r', p, hx, RunningCall.resumes h, rfl⟩

/-- A call that is about to insert its route still speaks for the connection registered under its
key. -/
def Current (s : RegistryRun) : RegistryAction → Bool
  | .resume n (.persisted (some _)) _ =>
    match s.calls.lookup n with
    | some ⟨call, .store _ host⟩ => (s.registry.routes.lookup host).isSome ||
      (s.registry.connections.lookup call.keyId).any (·.connectionId = call.connectionId)
    | _ => true
  | _ => true

theorem Current.registered {s : RegistryRun} {n : Nat} {id : ServiceId} {now : Int}
    {x : RunningCall} {machineId : Int} {host : String}
    (h : s.Current (.resume n (.persisted (some id)) now)) (hx : s.calls.lookup n = some x)
    (hstage : x.stage = .store machineId host) (hnone : s.registry.routes.lookup host = none) :
    ∃ conn, s.registry.connections.lookup x.call.keyId = some conn ∧
      conn.connectionId = x.call.connectionId := by
  obtain ⟨call, stage⟩ := x
  cases hstage
  simpa [Current, hx, hnone, Option.any_eq_true] using h

end RegistryRun

/-! ## Ownership -/

namespace Registry

/-- The route belongs to the connection registered under its key, which lists the hostname. -/
def Owner (r : Registry) (host : String) (route : TunnelRoute) : Prop :=
  ∃ conn, r.connections.lookup route.keyId = some conn ∧ conn.connectionId = route.proxyTx ∧
    host ∈ conn.services

def Owned (r : Registry) : Prop := ∀ host route, r.routes.lookup host = some route →
  r.Owner host route

variable {r : Registry} {keyId : KeyId} {now : Int}

/-- Evicting all services of a connection that is no longer registered leaves no orphan. -/
theorem Owned.evict (I : r.Owned) {old : ActiveConnection}
    (ho : r.connections.lookup keyId = some old) {r' : Registry} (hr : r'.routes = r.routes)
    (hc : ∀ k, k ≠ keyId → r'.connections.lookup k = r.connections.lookup k) :
    (old.services.foldl (evict now) r').Owned := by
  intro host route h
  rw [foldl_evict_routes, hr] at h
  split at h
  · cases h
  · rename_i hout
    obtain ⟨conn, hconn, hid, hmem⟩ := I host route h
    have hne : route.keyId ≠ keyId := by
      intro heq
      rw [heq, ho] at hconn
      cases hconn
      exact hout hmem
    exact ⟨conn, by rw [foldl_evict_connections, hc _ hne, hconn], hid, hmem⟩

theorem Owned.registerConnection (I : r.Owned) (closeTx : Oneshot) :
    (r.registerConnection keyId closeTx now).1.Owned := by
  unfold Registry.registerConnection
  dsimp only
  split
  · rename_i hnone
    intro host route h
    obtain ⟨conn, hconn, hid, hmem⟩ := I host route h
    refine ⟨conn, ?_, hid, hmem⟩
    rw [Map.lookup_insert_ite, if_neg, hconn]
    intro heq
    rw [heq, hnone] at hconn
    cases hconn
  · rename_i old ho
    refine I.evict ho rfl fun k hk => ?_
    rw [Map.lookup_insert_ite, if_neg hk]

theorem Owned.unregisterConnection (I : r.Owned) (connectionId : ConnectionId) :
    (r.unregisterConnection keyId connectionId now).Owned := by
  unfold Registry.unregisterConnection
  split
  · exact I
  · rename_i old ho
    refine I.evict (ownConnection_eq_some.mp ho).1 rfl fun k hk => ?_
    rw [Map.lookup_erase_ite, if_neg hk]

theorem Owned.unregisterService (I : r.Owned) (hostname : String) :
    (r.unregisterService keyId hostname now).Owned := by
  unfold Registry.unregisterService
  dsimp only
  split
  · exact I
  · intro host route h
    rw [modifyServices_routes, setActive_routes, dropRoute_routes] at h
    split at h
    · cases h
    · rename_i hne
      obtain ⟨conn, hconn, hid, hmem⟩ := I host route h
      unfold Owner
      rw [modifyServices_connections, setActive_connections, dropRoute_connections, hconn]
      split
      · exact ⟨_, rfl, hid, by simp [hmem, hne]⟩
      · exact ⟨conn, rfl, hid, hmem⟩

theorem Owned.closeConnection (I : r.Owned) (code : CloseCode) (listening : Oneshot → Bool) :
    (r.closeConnection keyId code listening).1.Owned := by
  unfold Registry.closeConnection
  split
  · exact I
  · rename_i conn' hc
    intro host route h
    obtain ⟨conn, hconn, hid, hmem⟩ := I host route h
    unfold Owner
    rw [Map.lookup_insert_ite]
    split
    · rename_i heq
      rw [heq, hc] at hconn
      cases hconn
      exact ⟨_, rfl, hid, hmem⟩
    · exact ⟨conn, hconn, hid, hmem⟩

/-! ## Renames -/

/-- What the remapping loop keeps: the connections, the routes of other keys, and the channel of
each route of the key. -/
structure Remapped (keyId : KeyId) (r r' : Registry) : Prop where
  connections : r'.connections = r.connections
  others : ∀ {host route}, r'.routes.lookup host = some route → route.keyId ≠ keyId →
    r.routes.lookup host = some route
  moved : ∀ {host route}, r'.routes.lookup host = some route → route.keyId = keyId →
    ∃ old route', r.routes.lookup old = some route' ∧ route'.keyId = keyId ∧
      route'.proxyTx = route.proxyTx

theorem Remapped.refl (keyId : KeyId) (r : Registry) : Remapped keyId r r :=
  ⟨rfl, fun h _ => h, fun h hk => ⟨_, _, h, hk, rfl⟩⟩

/-- One round: the hostname taken up is one of the key's, or gone. -/
theorem Remapped.remap {r₀ : Registry} {x : Registry × Nat} {old : String}
    (R : Remapped keyId r₀ x.1) (identity : Identity)
    (hold : ∀ route, x.1.routes.lookup old = some route → route.keyId = keyId) :
    Remapped keyId r₀ (Registry.remap identity x old).1 ∧
    ∀ host route, (Registry.remap identity x old).1.routes.lookup host = some route →
      route.keyId = keyId ∨ x.1.routes.lookup host = some route := by
  unfold Registry.remap
  split
  · exact ⟨R, fun _ _ h => .inr h⟩
  · rename_i route hroute
    have hk := hold route hroute
    have hcases : ∀ {host route'},
        (x.1.moveRoute identity old route).routes.lookup host = some route' →
        (route'.keyId = keyId ∧ route'.proxyTx = route.proxyTx) ∨
          x.1.routes.lookup host = some route' := by
      intro host route' h
      rw [moveRoute_routes] at h
      dsimp only at h
      split at h
      · cases h
        exact .inl ⟨hk, rfl⟩
      · split at h
        · cases h
        · exact .inr h
    refine ⟨⟨by rw [moveRoute_connections, R.connections], fun h hne => ?_, fun h hk' => ?_⟩,
      fun host route' h => (hcases h).imp_left (·.1)⟩
    · rcases hcases h with ⟨heq, _⟩ | h
      · exact absurd heq hne
      · exact R.others h hne
    · rcases hcases h with ⟨_, htx⟩ | h
      · obtain ⟨o, route', ho, hok, hotx⟩ := R.moved hroute hk
        exact ⟨o, route', ho, hok, hotx.trans htx.symm⟩
      · exact R.moved h hk'

theorem Remapped.foldl {r₀ : Registry} {identity : Identity} {hosts : List String}
    {x : Registry × Nat} (R : Remapped keyId r₀ x.1)
    (hosts_key : ∀ host ∈ hosts, ∀ route, x.1.routes.lookup host = some route →
      route.keyId = keyId) : Remapped keyId r₀ (hosts.foldl (Registry.remap identity) x).1 := by
  induction hosts generalizing x with
  | nil => exact R
  | cons old hosts ih =>
    obtain ⟨R', hkept⟩ := R.remap identity (hosts_key old (by simp))
    refine ih R' fun host hhost route h => ?_
    rcases hkept host route h with hk | h
    · exact hk
    · exact hosts_key host (by simp [hhost]) route h

theorem Owned.renameMachine (I : r.Owned) (identity : Option Identity) :
    (r.renameMachine keyId identity).1.Owned := by
  cases identity with
  | none => exact I
  | some identity =>
    have R : Remapped keyId r ((r.hostsOf keyId).foldl (Registry.remap identity) (r, 0)).1 := by
      refine (Remapped.refl keyId r).foldl fun host hhost route h => ?_
      obtain ⟨⟨a, b⟩, he, rfl⟩ := List.mem_map.mp hhost
      obtain ⟨hmem, hk⟩ := List.mem_filter.mp he
      rw [Map.lookup_of_mem hmem] at h
      cases h
      simpa using hk
    simp only [Registry.renameMachine]
    generalize ((r.hostsOf keyId).foldl (Registry.remap identity) (r, 0)).1 = r' at R
    intro host route h
    rw [modifyServices_routes] at h
    unfold Owner
    rw [modifyServices_connections, R.connections]
    by_cases hk : route.keyId = keyId
    · obtain ⟨old, route', ho, hok, htx⟩ := R.moved h hk
      obtain ⟨conn, hconn, hid, _⟩ := I old route' ho
      rw [if_pos hk, hk, ← hok, hconn]
      refine ⟨_, rfl, hid.trans htx, ?_⟩
      rw [hok, ← hk]
      exact mem_hostsOf r' h
    · rw [if_neg hk]
      exact I host route (R.others h hk)

/-! ## Registrations -/

theorem Owned.settleService (I : r.Owned) (call : RegisterCall) (host : String) :
    (r.settleService call host).Owned := I

theorem installService_eq_ok {call : RegisterCall} {host : String} {serviceId : Option ServiceId}
    {r' : Registry} (h : r.installService call host serviceId now = .ok r') :
    ∃ id, serviceId = some id ∧ r.routes.lookup host = none ∧
      r' = ({ r with
        routes := r.routes.insert host ⟨host, call.service, id, call.keyId, call.proxyTx⟩
        metering := r.metering.registerService id now }.setActive host true).modifyServices
          call.keyId fun conn => if conn.connectionId = call.connectionId
            then conn.services.insert host else conn.services := by
  unfold installService at h
  split at h
  · cases h
  · rename_i id
    split at h
    · cases h
    · rename_i hnone
      cases h
      exact ⟨id, rfl, by simpa using hnone, rfl⟩

theorem Owned.installService (I : r.Owned) {call : RegisterCall} {host : String}
    {serviceId : Option ServiceId} {r' : Registry} {conn : ActiveConnection}
    (hc : r.connections.lookup call.keyId = some conn) (hid : conn.connectionId = call.connectionId)
    (htx : call.proxyTx = call.connectionId)
    (h : r.installService call host serviceId now = .ok r') : r'.Owned := by
  obtain ⟨id, rfl, hnone, rfl⟩ := installService_eq_ok h
  intro host' route h
  rw [modifyServices_routes, setActive_routes, Map.lookup_insert_ite] at h
  unfold Owner
  rw [modifyServices_connections, setActive_connections]
  split at h
  · rename_i heq
    cases h
    rw [if_pos rfl, hc]
    refine ⟨_, rfl, hid.trans htx.symm, ?_⟩
    simp [hid, heq]
  · obtain ⟨conn', hconn, hid', hmem⟩ := I host' route h
    rw [hconn]
    split
    · exact ⟨_, rfl, hid', by dsimp only; split <;> simp [hmem]⟩
    · exact ⟨conn', rfl, hid', hmem⟩

end Registry

/-! ## Runs -/

namespace RegistryRun

/-- The registry is in order, and running calls pass the channel of the connection they name. -/
structure Orderly (s : RegistryRun) : Prop where
  owned : s.registry.Owned
  channel : ∀ n x, s.calls.lookup n = some x → x.call.proxyTx = x.call.connectionId

variable {s s' : RegistryRun}

theorem Orderly.init (tunnelDomain : String) : (init tunnelDomain).Orderly where
  owned _ _ h := by cases h
  channel _ _ h := by cases h

theorem Orderly.resume (I : s.Orderly) {n : Nat} {reply : Reply} {now : Int}
    (hg : s.Current (.resume n reply now)) (H : s.step (.resume n reply now) = some s') :
    s'.Orderly := by
  obtain ⟨x, r', p, hx, hr, rfl⟩ := step_resume H
  have htx := I.channel n x hx
  refine ⟨?_, fun m y hy => ?_⟩
  · cases hr with
    | refused => exact I.owned
    | checked => exact I.owned
    | installed hstage hinstall =>
      obtain ⟨_, _, hnone, _⟩ := Registry.installService_eq_ok hinstall
      obtain ⟨conn, hc, hid⟩ := Current.registered hg hx hstage hnone
      exact I.owned.installService hc hid htx hinstall
    | settled => exact I.owned.settleService _ _
  · cases hr with
    | refused | settled =>
      simp only [Progress.record, Map.lookup_erase_ite] at hy
      split at hy
      · cases hy
      · exact I.channel m y hy
    | checked | installed =>
      simp only [Progress.record, Map.lookup_insert_ite] at hy
      split at hy
      · cases hy
        exact htx
      · exact I.channel m y hy

theorem Orderly.step (I : s.Orderly) {a : RegistryAction} (hg : s.Current a)
    (H : s.step a = some s') : s'.Orderly := by
  cases a with
  | registerConnection keyId closeTx now =>
    cases H
    exact ⟨I.owned.registerConnection closeTx, I.channel⟩
  | unregisterConnection keyId connectionId now =>
    cases H
    exact ⟨I.owned.unregisterConnection connectionId, I.channel⟩
  | unregisterService keyId hostname now =>
    cases H
    exact ⟨I.owned.unregisterService hostname, I.channel⟩
  | closeConnection keyId code =>
    cases H
    exact ⟨I.owned.closeConnection code _, I.channel⟩
  | renameMachine keyId identity =>
    cases H
    exact ⟨I.owned.renameMachine identity, I.channel⟩
  | registerService n keyId connectionId service =>
    simp only [RegistryRun.step] at H
    split at H
    · cases H
    · cases H
      refine ⟨I.owned, fun m x hx => ?_⟩
      rw [Map.lookup_insert_ite] at hx
      split at hx
      · cases hx
        rfl
      · exact I.channel m x hx
  | resume n reply now => exact I.resume hg H

/-- In every run in which the calls that insert a route are current, each route belongs to the
connection registered under its key: a key without a connection has no route, and a registration
refused as a duplicate meets a route with an owner. -/
theorem routes_owned {tunnelDomain : String} {actions : List RegistryAction}
    (H : run step (.init tunnelDomain) actions = some s)
    (hm : Meets step (fun s a => s.Current a) (.init tunnelDomain) actions) :
    (∀ host route, s.registry.routes.lookup host = some route → s.registry.Owner host route) ∧
    (∀ keyId, s.registry.connections.lookup keyId = none → s.registry.hostsOf keyId = []) ∧
    ∀ call identity, s.registry.checkService call (some identity) = .error .alreadyRegistered →
      ∃ route, s.registry.Owner (identity.hostname call.service s.registry.tunnelDomain) route := by
  have I : s.Orderly := run_invariant_of_meets (fun I hg H => I.step hg H) hm (.init tunnelDomain) H
  refine ⟨I.owned, fun keyId hk => ?_, fun call identity h => ?_⟩
  · rw [Registry.hostsOf, List.map_eq_nil_iff, List.filter_eq_nil_iff]
    rintro ⟨host, route⟩ he heq
    obtain ⟨conn, hconn, _⟩ := I.owned host route (Map.lookup_of_mem he)
    rw [of_decide_eq_true heq, hk] at hconn
    cases hconn
  · simp only [Registry.checkService] at h
    split at h
    · rename_i hsome
      obtain ⟨route, hroute⟩ := Option.isSome_iff_exists.mp hsome
      exact ⟨route, I.owned _ _ hroute⟩
    · cases h

namespace Sample

def key : KeyId := .ed25519 ⟨.replicate 32 7, by decide⟩

def ann : Identity := ⟨1, 1, "ann", "laptop"⟩

/-- A connection registers its service. -/
def registering : List RegistryAction :=
  [.registerConnection key 0 0, .registerService 0 key 1 "web", .resume 0 (.identity (some ann)) 0,
    .resume 0 (.persisted (some 5)) 0, .resume 0 .certified 0]

/-- The connection closes while the store persists the service. -/
def closing : List RegistryAction :=
  [.registerConnection key 0 0, .registerService 0 key 1 "web", .resume 0 (.identity (some ann)) 0,
    .unregisterConnection key 1 0, .resume 0 (.persisted (some 5)) 0, .resume 0 .certified 0]

end Sample

open Sample in
theorem routes_owned_registering : ∃ s route, run step (.init "example.com") registering = some s ∧
    s.registry.routes.lookup "ann-laptop-web.example.com" = some route ∧
    s.registry.Owner "ann-laptop-web.example.com" route := by
  obtain ⟨s, H⟩ : ∃ s, run step (.init "example.com") registering = some s :=
    Option.isSome_iff_exists.mp (by decide +kernel)
  have hroute : ((run step (.init "example.com") registering).bind
      (·.registry.routes.lookup "ann-laptop-web.example.com")).isSome := by decide +kernel
  rw [H, Option.bind_some] at hroute
  obtain ⟨route, hroute⟩ := Option.isSome_iff_exists.mp hroute
  exact ⟨s, route, H, hroute, (routes_owned H (by decide +kernel)).1 _ _ hroute⟩

open Sample in
/-- A connection that closed leaves a route behind; a later registration of the hostname is
refused. -/
theorem route_orphaned : ∃ s, run step (.init "example.com") closing = some s ∧ s.calls.keys = [] ∧
    s.registry.connections.lookup key = none ∧
    s.registry.hostsOf key = ["ann-laptop-web.example.com"] ∧
    s.registry.checkService ⟨key, 2, "web", 2⟩ (some ann) = .error .alreadyRegistered := by
  have h : (run step (.init "example.com") closing).any fun s => decide (s.calls.keys = [] ∧
      s.registry.connections.lookup key = none ∧
      s.registry.hostsOf key = ["ann-laptop-web.example.com"] ∧
      s.registry.checkService ⟨key, 2, "web", 2⟩ (some ann) = .error .alreadyRegistered) := by
    decide +kernel
  obtain ⟨s, hs, h⟩ := (Option.any_eq_true _ _).mp h
  exact ⟨s, hs, of_decide_eq_true h⟩

end RegistryRun

end TunnelWeaver.Server
