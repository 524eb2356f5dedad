import TunnelWeaver.Lib.Automaton
import TunnelWeaver.Lib.Locks
import TunnelWeaver.Server.Ownership

/-! The three locks of the registry: the `connections` mutex and the `routes` and `active_hosts`
read-write locks. Each call is given as the program of its lock operations; run alone it does what
the call does (`program_exec`). Evicting the services of a connection takes `routes` under
`connections`; removing a service takes `connections` under `routes`. -/

namespace TunnelWeaver.Server

open Mux (KeyId CloseCode)
open Proto (toAsciiLowercase)
open Locks (Mode World Action)
open Locks.Prog (acquire release compute done)
open Automaton (run Meets run_invariant_of_meets)

inductive RegistryLock where
  | connections
  | routes
  | activeHosts
  deriving DecidableEq

open RegistryLock

/-- The calls of the registry, with the parts of `register_service` between await points. -/
inductive RegistryCall where
  | setActive (name : String) (active : Bool)
  | isActive (name : String)
  | registerConnection (keyId : KeyId) (closeTx : Oneshot) (now : Int)
  | isConnected (keyId : KeyId)
  | closeConnection (keyId : KeyId) (code : CloseCode)
  | renameMachine (keyId : KeyId) (identity : Identity)
  | unregisterConnection (keyId : KeyId) (connectionId : ConnectionId) (now : Int)
  | checkService (call : Registry.RegisterCall) (identity : Identity)
  | installService (call : Registry.RegisterCall) (host : String) (serviceId : ServiceId) (now : Int)
  | settleService (call : Registry.RegisterCall) (host : String)
  | unregisterService (keyId : KeyId) (hostname : String) (now : Int)
  | resolve (hostname : String)

abbrev LockProgram := Locks.Prog RegistryLock Registry

namespace LockProgram

/-- `set_active`. -/
def setActive (name : String) (active : Bool) (next : LockProgram) : LockProgram :=
  acquire activeHosts .exclusive <| compute (·.setActive name active) fun _ =>
    release activeHosts next

/-- The eviction loop. -/
def evict (now : Int) : List String → LockProgram → LockProgram
  | [], next => next
  | hostname :: services, next => compute (·.dropRoute now hostname) fun _ =>
    setActive hostname false (evict now services next)

/-- Evict the services of a connection, holding `connections`. -/
def evictAll (now : Int) (services : List String) : LockProgram :=
  acquire routes .exclusive <| evict now services <| release routes <| release connections done

/-- The new connection takes its place, holding `connections`. -/
def supersede (keyId : KeyId) (closeTx : Oneshot) (now : Int) (connId : ConnectionId) :
    LockProgram :=
  compute (fun r => { r with connections := r.connections.insert keyId ⟨connId, some closeTx, []⟩ })
    fun r => match r.connections.lookup keyId with
      | none => release connections done
      | some old => evictAll now old.services

/-- The connection leaves, holding `connections`. -/
def leave (keyId : KeyId) (connectionId : ConnectionId) (now : Int) : LockProgram :=
  compute (fun r => if (r.ownConnection keyId connectionId).isSome then
      { r with connections := r.connections.erase keyId } else r)
    fun r => match r.ownConnection keyId connectionId with
      | none => release connections done
      | some old => evictAll now old.services

/-- The remapping loop. -/
def remap (identity : Identity) : List String → LockProgram → LockProgram
  | [], next => next
  | old :: hosts, next => compute (fun r => { r with routes := r.routes.erase old }) fun r =>
    match r.routes.lookup old with
    | none => remap identity hosts next
    | some route =>
      let new := identity.hostname route.service r.tunnelDomain
      let next := compute
        (fun r => { r with routes := r.routes.insert new { route with hostname := new } })
        fun _ => remap identity hosts next
      if new = old then next
      else acquire activeHosts .shared <| compute id fun r => release activeHosts <|
        setActive old false <| setActive new (r.isActive old) next

/-- The lock is held for one computation. -/
def under (l : RegistryLock) (update : Registry → Registry) (next : LockProgram) : LockProgram :=
  acquire l .exclusive <| compute update fun _ => release l next

/-- The connection no longer lists the service, holding `routes`. -/
def unlist (keyId : KeyId) (lower : String) : LockProgram :=
  under connections (·.modifyServices keyId fun conn => conn.services.filter (· ≠ lower)) <|
    release routes done

/-- The route goes, if it belongs to the key, holding `routes`. -/
def removeService (keyId : KeyId) (lower : String) (now : Int) : LockProgram :=
  compute (fun r => if (r.ownRoute keyId lower).isSome then r.dropRoute now lower else r)
    fun r => match r.ownRoute keyId lower with
      | none => release routes done
      | some _ => setActive lower false (unlist keyId lower)

end LockProgram

open LockProgram

namespace RegistryCall

def program : RegistryCall → LockProgram
  | setActive name active => LockProgram.setActive name active done
  | isActive _ => acquire activeHosts .shared <| release activeHosts done
  | registerConnection keyId closeTx now =>
    compute (fun r => { r with nextConnId := (r.nextConnId + 1) % 2 ^ 64 }) fun r =>
      acquire connections .exclusive <| supersede keyId closeTx now r.nextConnId
  | isConnected _ => acquire connections .exclusive <| release connections done
  | closeConnection keyId code =>
    under connections (fun r => (r.closeConnection keyId code fun _ => true).1) done
  | renameMachine keyId identity =>
    acquire routes .exclusive <| compute id fun r => LockProgram.remap identity (r.hostsOf keyId) <|
      compute id fun r => release routes <|
        under connections (·.modifyServices keyId fun _ => r.hostsOf keyId) done
  | unregisterConnection keyId connectionId now =>
    acquire connections .exclusive <| leave keyId connectionId now
  | checkService .. | resolve _ => acquire routes .shared <| release routes done
  | installService call host serviceId now =>
    acquire routes .exclusive <| compute (fun r => if (r.routes.lookup host).isSome then r else
        { r with
          routes := r.routes.insert host ⟨host, call.service, serviceId, call.keyId, call.proxyTx⟩ })
      fun r => release routes <| if (r.routes.lookup host).isSome then done else
        compute (fun r => { r with metering := r.metering.registerService serviceId now }) fun _ =>
          LockProgram.setActive host true <| under connections (·.modifyServices call.keyId fun conn =>
            if conn.connectionId = call.connectionId then conn.services.insert host
            else conn.services) done
  | settleService call host =>
    acquire routes .shared <| compute id fun r =>
      LockProgram.setActive host (r.ownRoute call.keyId host).isSome <| release routes done
  | unregisterService keyId hostname now =>
    acquire routes .exclusive <| removeService keyId (toAsciiLowercase hostname) now

/-- What the call does to the registry. -/
def apply (r : Registry) : RegistryCall → Registry
  | setActive name active => r.setActive name active
  | isActive _ | isConnected _ | checkService .. | resolve _ => r
  | registerConnection keyId closeTx now => (r.registerConnection keyId closeTx now).1
  | closeConnection keyId code => (r.closeConnection keyId code fun _ => true).1
  | renameMachine keyId identity => (r.renameMachine keyId (some identity)).1
  | unregisterConnection keyId connectionId now => r.unregisterConnection keyId connectionId now
  | installService call host serviceId now =>
    match r.installService call host (some serviceId) now with
    | .ok r => r
    | .error _ => r
  | settleService call host => r.settleService call host
  | unregisterService keyId hostname now => r.unregisterService keyId hostname now

end RegistryCall

/-! ## A call running alone -/

open Locks

variable {r : Registry} {now : Int}

theorem exec_evict (services : List String) (next : LockProgram) :
    (evict now services next).exec r = next.exec (services.foldl (Registry.evict now) r) := by
  induction services generalizing r with
  | nil => rfl
  | cons hostname services ih =>
    simp only [evict, setActive, Prog.exec, ih, List.foldl_cons]
    rfl

theorem exec_remap (identity : Identity) (hosts : List String) (n : Nat) (next : LockProgram) :
    (remap identity hosts next).exec r =
      next.exec (hosts.foldl (Registry.remap identity) (r, n)).1 := by
  induction hosts generalizing r n with
  | nil => rfl
  | cons old hosts ih =>
    simp only [remap, Prog.exec, List.foldl_cons]
    cases h : r.routes.lookup old with
    | none =>
      have hr : { r with routes := r.routes.erase old } = r := by
        rw [Map.erase_of_lookup_none h]
      simp only [Registry.remap, h, hr]
      exact ih n
    | some route =>
      simp only [Registry.remap, h, Registry.moveRoute]
      split
      · rename_i heq
        simp only [Prog.exec, heq]
        exact ih (n + 1)
      · simp only [Prog.exec, setActive]
        exact ih (n + 1)

theorem program_exec (c : RegistryCall) : c.program.exec r = c.apply r := by
  cases c with
  | setActive | isActive | isConnected | checkService | resolve | closeConnection | settleService =>
    rfl
  | registerConnection keyId closeTx now =>
    simp only [RegistryCall.program, Prog.exec, supersede, RegistryCall.apply,
      Registry.registerConnection]
    cases r.connections.lookup keyId with
    | none => rfl
    | some old => simp only [evictAll, Prog.exec, exec_evict]
  | unregisterConnection keyId connectionId now =>
    simp only [RegistryCall.program, Prog.exec, leave, RegistryCall.apply,
      Registry.unregisterConnection]
    cases r.ownConnection keyId connectionId with
    | none => rfl
    | some old =>
      simp only [evictAll, Prog.exec, exec_evict]
      rfl
  | renameMachine keyId identity =>
    simp only [RegistryCall.program, Prog.exec, RegistryCall.apply, Registry.renameMachine,
      exec_remap identity _ 0, under, id]
  | installService call host serviceId now =>
    simp only [RegistryCall.program, Prog.exec, RegistryCall.apply, Registry.installService]
    cases (r.routes.lookup host).isSome <;> rfl
  | unregisterService keyId hostname now =>
    simp only [RegistryCall.program, Prog.exec, removeService, RegistryCall.apply,
      Registry.unregisterService]
    cases r.ownRoute keyId (toAsciiLowercase hostname) <;> rfl

/-! ## Nesting -/

/-- The nesting all calls agree on: `active_hosts` is taken last. -/
def Below (h l : RegistryLock) : Prop := h ≠ activeHosts ∧ l = activeHosts

variable {held : List (RegistryLock × Mode)} {next : LockProgram}

theorem nests_setActive (hh : ∀ h ∈ held, h.1 ≠ activeHosts) (hn : next.Nests Below held)
    (name : String) (active : Bool) : (setActive name active next).Nests Below held := by
  refine ⟨fun h hm => ⟨hh h hm, rfl⟩, fun _ => ?_⟩
  have hf : ((activeHosts, Mode.exclusive) :: held).filter (·.1 ≠ activeHosts) = held := by
    simpa using hh
  rw [Prog.Nests, hf]
  exact hn

theorem nests_evict (hh : ∀ h ∈ held, h.1 ≠ activeHosts) (hn : next.Nests Below held)
    (services : List String) : (evict now services next).Nests Below held := by
  induction services with
  | nil => exact hn
  | cons hostname services ih => exact fun _ => nests_setActive hh ih _ _

theorem nests_remap (hh : ∀ h ∈ held, h.1 ≠ activeHosts) (hn : next.Nests Below held)
    (identity : Identity) (hosts : List String) :
    (remap identity hosts next).Nests Below held := by
  induction hosts with
  | nil => exact hn
  | cons old hosts ih =>
    intro r
    dsimp only
    split
    · exact ih
    · split
      · exact fun _ => ih
      · refine ⟨fun h hm => ⟨hh h hm, rfl⟩, fun r => ?_⟩
        have hf : ((activeHosts, Mode.shared) :: held).filter (·.1 ≠ activeHosts) = held := by
          simpa using hh
        rw [Prog.Nests, hf]
        refine nests_setActive hh (nests_setActive hh ?_ _ _) _ _
        exact fun _ => ih

theorem nests_under {l : RegistryLock} (hn : next.Nests Below []) (update : Registry → Registry) :
    (under l update next).Nests Below [] := by
  refine ⟨by simp, fun _ => ?_⟩
  simpa [Prog.Nests] using hn

/-- What follows once an eviction holds both locks. -/
theorem nests_evictAll (services : List String) :
    (evict now services <| release routes <| release connections done).Nests Below
      [(routes, .exclusive), (connections, .exclusive)] :=
  nests_evict (by simp) (Prog.nests_release (Prog.nests_release Prog.nests_done)) services

/-! ## Phases of a call -/

abbrev LockThread := Thread RegistryCall RegistryLock Registry

abbrev LockWorld := World RegistryCall RegistryLock Registry

/-- The call holds `connections` and goes for `routes`. -/
def evicting (x : LockThread) : Bool :=
  match x.held, x.prog with
  | [(.connections, _)], .acquire .routes _ _ => true
  | _, _ => false

/-- The call has removed a route and holds `routes`, with `connections` still to be taken. -/
def removing (x : LockThread) : Bool :=
  match x.call, x.held, x.prog with
  | .unregisterService .., [(.routes, _)], .acquire .. => true
  | .unregisterService .., [(.activeHosts, _), (.routes, _)], _ => true
  | _, _, _ => false

/-- The call holds `connections` and finds a connection to evict. -/
def findsConnection (r : Registry) (x : LockThread) : Bool :=
  match x.call, x.held, x.prog with
  | .registerConnection keyId .., [(.connections, _)], .compute .. =>
    (r.connections.lookup keyId).isSome
  | .unregisterConnection keyId connectionId _, [(.connections, _)], .compute .. =>
    (r.ownConnection keyId connectionId).isSome
  | _, _, _ => false

/-- The call holds `routes` and finds a route to remove. -/
def findsRoute (r : Registry) (x : LockThread) : Bool :=
  match x.call, x.held, x.prog with
  | .unregisterService keyId hostname _, [(.routes, _)], .compute .. =>
    (r.ownRoute keyId (toAsciiLowercase hostname)).isSome
  | _, _, _ => false

/-- The phases of `unregister_service`. -/
inductive RemovePhase (keyId : KeyId) (lower : String) (now : Int) :
    List (RegistryLock × Mode) → LockProgram → Prop
  | start : RemovePhase keyId lower now []
    (acquire routes .exclusive <| removeService keyId lower now)
  | look : RemovePhase keyId lower now [(routes, .exclusive)] (removeService keyId lower now)
  | flag : RemovePhase keyId lower now [(routes, .exclusive)]
    (setActive lower false (unlist keyId lower))
  | flagged : RemovePhase keyId lower now [(activeHosts, .exclusive), (routes, .exclusive)]
    (compute (·.setActive lower false) fun _ => release activeHosts (unlist keyId lower))
  | unflag : RemovePhase keyId lower now [(activeHosts, .exclusive), (routes, .exclusive)]
    (release activeHosts (unlist keyId lower))
  | unlist : RemovePhase keyId lower now [(routes, .exclusive)] (unlist keyId lower)
  | listed {update} : RemovePhase keyId lower now [(connections, .exclusive), (routes, .exclusive)]
    (compute update fun _ => release connections (release routes done))
  | unlisted : RemovePhase keyId lower now [(connections, .exclusive), (routes, .exclusive)]
    (release connections (release routes done))
  | leave : RemovePhase keyId lower now [(routes, .exclusive)] (release routes done)
  | done : RemovePhase keyId lower now [] done

inductive Phase : LockThread → Prop
  | nests {x} : (∀ keyId hostname now, x.call ≠ .unregisterService keyId hostname now) →
    x.prog.Nests Below x.held → Phase x
  | register {keyId closeTx now} :
    Phase ⟨.registerConnection keyId closeTx now, [],
      (RegistryCall.registerConnection keyId closeTx now).program⟩
  | numbered {keyId closeTx now connId} :
    Phase ⟨.registerConnection keyId closeTx now, [],
      acquire connections .exclusive (supersede keyId closeTx now connId)⟩
  | supersede {keyId closeTx now connId} :
    Phase ⟨.registerConnection keyId closeTx now, [(connections, .exclusive)],
      supersede keyId closeTx now connId⟩
  | unregister {keyId connectionId now} :
    Phase ⟨.unregisterConnection keyId connectionId now, [],
      acquire connections .exclusive (leave keyId connectionId now)⟩
  | leave {keyId connectionId now} :
    Phase ⟨.unregisterConnection keyId connectionId now, [(connections, .exclusive)],
      leave keyId connectionId now⟩
  | evict {c now services} : (∀ keyId hostname now, c ≠ .unregisterService keyId hostname now) →
    Phase ⟨c, [(connections, .exclusive)], evictAll now services⟩
  | remove {keyId hostname now held prog} :
    RemovePhase keyId (toAsciiLowercase hostname) now held prog →
    Phase ⟨.unregisterService keyId hostname now, held, prog⟩

theorem Phase.start (c : RegistryCall) : Phase ⟨c, [], c.program⟩ := by
  cases c with
  | registerConnection => exact .register
  | unregisterConnection => exact .unregister
  | unregisterService => exact .remove .start
  | setActive name active =>
    exact .nests (by simp) (nests_setActive (by simp) Prog.nests_done _ _)
  | isActive | isConnected | checkService | resolve => exact .nests (by simp) ⟨by simp, trivial⟩
  | closeConnection => exact .nests (by simp) (nests_under Prog.nests_done _)
  | renameMachine keyId identity =>
    refine .nests (by simp) ⟨by simp, fun r => nests_remap (by simp) (fun r => ?_) _ _⟩
    exact nests_under Prog.nests_done _
  | installService call host serviceId now =>
    refine .nests (by simp) ⟨by simp, fun r => ?_⟩
    rw [Prog.Nests]
    split
    · trivial
    · exact fun _ => nests_setActive (by simp) (nests_under Prog.nests_done _) _ _
  | settleService call host =>
    exact .nests (by simp) ⟨by simp, fun r => nests_setActive (by simp) (Prog.nests_release Prog.nests_done) _ _⟩

theorem not_evicting_of_nests {x : LockThread} (h : x.prog.Nests Below x.held) :
    evicting x = false := by
  unfold evicting
  split
  · rename_i hheld hprog
    rw [hheld, hprog] at h
    exact absurd (h.1 _ (List.mem_singleton_self _)).2 (by simp)
  · rfl

theorem not_removing {x : LockThread}
    (h : ∀ keyId hostname now, x.call ≠ .unregisterService keyId hostname now) :
    removing x = false := by
  unfold removing
  split
  · rename_i hc _ _
    exact absurd hc (h _ _ _)
  · rename_i hc _
    exact absurd hc (h _ _ _)
  · rfl

variable {w w' : LockWorld}

theorem RemovePhase.advance {keyId : KeyId} {hostname : String} {prog : LockProgram}
    {x' : LockThread} {d : Registry}
    (h : RemovePhase keyId (toAsciiLowercase hostname) now held prog)
    (H : w.advance ⟨.unregisterService keyId hostname now, held, prog⟩ = some (d, x')) :
    Phase x' ∧ evicting x' = false ∧ (removing x' →
      removing ⟨.unregisterService keyId hostname now, held, prog⟩ ∨
      findsRoute w.data ⟨.unregisterService keyId hostname now, held, prog⟩) := by
  cases h with
  | start =>
    cases World.advance_acquire H
    exact ⟨.remove .look, rfl, fun h => by cases h⟩
  | look =>
    cases World.advance_compute H
    split
    · exact ⟨.remove .leave, rfl, fun h => by cases h⟩
    · rename_i hroute
      exact ⟨.remove .flag, rfl, fun _ => .inr (by simp [findsRoute, removeService, hroute])⟩
  | flag =>
    cases World.advance_acquire H
    exact ⟨.remove .flagged, rfl, fun _ => .inl rfl⟩
  | flagged =>
    cases World.advance_compute H
    exact ⟨.remove .unflag, rfl, fun _ => .inl rfl⟩
  | unflag =>
    cases World.advance_release H
    exact ⟨.remove .unlist, rfl, fun _ => .inl rfl⟩
  | unlist =>
    cases World.advance_acquire H
    exact ⟨.remove .listed, rfl, fun h => by cases h⟩
  | listed =>
    cases World.advance_compute H
    exact ⟨.remove .unlisted, rfl, fun h => by cases h⟩
  | unlisted =>
    cases World.advance_release H
    exact ⟨.remove .leave, rfl, fun h => by cases h⟩
  | leave =>
    cases World.advance_release H
    exact ⟨.remove .done, rfl, fun h => by cases h⟩
  | done => cases H

/-- One step of a call. It starts to evict only when it finds a connection, and to remove only when
it finds a route. -/
theorem Phase.advance {x x' : LockThread} {d : Registry} (h : Phase x)
    (H : w.advance x = some (d, x')) : Phase x' ∧
      (evicting x' → findsConnection w.data x) ∧ (removing x' → removing x ∨ findsRoute w.data x) := by
  have plain {y : LockThread}
      (hc : ∀ keyId hostname now, y.call ≠ RegistryCall.unregisterService keyId hostname now)
      (hn : y.prog.Nests Below y.held) : Phase y ∧ (evicting y → findsConnection w.data x) ∧
        (removing y → removing x ∨ findsRoute w.data x) :=
    ⟨.nests hc hn, fun h => by simp [not_evicting_of_nests hn] at h,
      fun h => by simp [not_removing hc] at h⟩
  cases h with
  | nests hc hn =>
    refine plain ?_ (World.advance_nests hn H)
    rw [World.advance_call H]
    exact hc
  | register =>
    cases World.advance_compute H
    refine ⟨.numbered, ?_, ?_⟩ <;> intro h <;> cases h
  | numbered =>
    cases World.advance_acquire H
    refine ⟨.supersede, ?_, ?_⟩ <;> intro h <;> cases h
  | supersede =>
    cases World.advance_compute H
    split
    · exact plain (by simp) (Prog.nests_release Prog.nests_done)
    · rename_i old hold
      refine ⟨.evict (by simp), fun _ => ?_, ?_⟩
      · simp [findsConnection, LockProgram.supersede, hold]
      · intro h
        cases h
  | unregister =>
    cases World.advance_acquire H
    refine ⟨.leave, ?_, ?_⟩ <;> intro h <;> cases h
  | leave =>
    cases World.advance_compute H
    split
    · exact plain (by simp) (Prog.nests_release Prog.nests_done)
    · rename_i old hold
      refine ⟨.evict (by simp), fun _ => ?_, ?_⟩
      · simp [findsConnection, LockProgram.leave, hold]
      · intro h
        cases h
  | evict hc =>
    cases World.advance_acquire H
    exact plain hc (nests_evictAll _)
  | remove hp =>
    obtain ⟨h, he, hr⟩ := hp.advance H
    exact ⟨h, fun h => by simp [he] at h, hr⟩

theorem not_removing_of_evicting {x : LockThread} (h : evicting x) : removing x = false := by
  unfold evicting at h
  split at h
  · rename_i hheld _
    unfold removing
    rw [hheld]
    split
    · rename_i heq _
      cases heq
    · rename_i heq
      cases heq
    · rfl
  · cases h

/-! ## Deadlock freedom -/

/-- A call that is about to evict finds no removal under way, and the other way round. -/
def Apart (w : LockWorld) : Action RegistryCall → Bool
  | .call .. => true
  | .go t =>
    match w.threads.lookup t with
    | none => true
    | some x => (!findsConnection w.data x || w.threads.entries.all fun e => !removing e.2) &&
      (!findsRoute w.data x || w.threads.entries.all fun e => !evicting e.2)

/-- Every call is in one of its phases, and no eviction goes on beside a removal. -/
structure Untangled (w : LockWorld) : Prop where
  phase : ∀ t x, w.threads.lookup t = some x → Phase x
  apart : (∀ t x, w.threads.lookup t = some x → evicting x = false) ∨
    ∀ t x, w.threads.lookup t = some x → removing x = false

theorem Untangled.call (I : Untangled w) {t : Nat} {c : RegistryCall}
    (H : w.step RegistryCall.program (.call t c) = some w') : Untangled w' := by
  cases World.step_call H
  have hc : evicting ⟨c, [], c.program⟩ = false := rfl
  have hr : removing ⟨c, [], c.program⟩ = false := by cases c <;> rfl
  refine ⟨fun u y hy => ?_, I.apart.imp (fun h u y hy => ?_) fun h u y hy => ?_⟩ <;>
    rw [Map.lookup_insert_ite] at hy <;> split at hy
  · cases hy
    exact .start c
  · exact I.phase u y hy
  · cases hy
    exact hc
  · exact h u y hy
  · cases hy
    exact hr
  · exact h u y hy

theorem Untangled.go (I : Untangled w) {t : Nat} (hg : Apart w (.go t))
    (H : w.step RegistryCall.program (.go t) = some w') : Untangled w' := by
  obtain ⟨x, d, x', hx, ha, rfl⟩ := World.step_go H
  obtain ⟨hp, he, hr⟩ := (I.phase t x hx).advance ha
  simp only [Apart, hx, Bool.and_eq_true, Bool.or_eq_true, Bool.not_eq_true', List.all_eq_true] at hg
  refine ⟨fun u y hy => ?_, ?_⟩
  · rw [Map.lookup_insert_ite] at hy
    split at hy
    · cases hy
      exact hp
    · exact I.phase u y hy
  · have others {P : LockThread → Bool} (hP : P x' = false)
        (h : ∀ u y, w.threads.lookup u = some y → P y = false) (u : Nat) (y : LockThread)
        (hy : (w.threads.insert t x').lookup u = some y) : P y = false := by
      rw [Map.lookup_insert_ite] at hy
      split at hy
      · cases hy
        exact hP
      · exact h u y hy
    cases hev : evicting x' with
    | true =>
      have hnone := hg.1.resolve_left (by simp [he hev])
      refine .inr (others (not_removing_of_evicting hev) fun u y hy => ?_)
      exact hnone ⟨u, y⟩ (AList.mem_lookup_iff.mp hy)
    | false =>
      cases hrm : removing x' with
      | true =>
        refine .inl (others hev fun u y hy => ?_)
        rcases hr hrm with hx' | hf
        · refine I.apart.elim (fun h => h u y hy) fun h => ?_
          rw [h t x hx] at hx'
          cases hx'
        · exact hg.2.resolve_left (by simp [hf]) ⟨u, y⟩ (AList.mem_lookup_iff.mp hy)
      | false => exact I.apart.imp (others hev) (others hrm)

/-- Two orders of the locks, for states without removals and for states without evictions. -/
def upRank : RegistryLock → Nat
  | connections => 0
  | routes => 1
  | activeHosts => 2

def downRank : RegistryLock → Nat
  | routes => 0
  | connections => 1
  | activeHosts => 2

theorem Phase.ranked {x : LockThread} (h : Phase x) {l l' : RegistryLock}
    (hw : x.wants = some l) (hl : l' ∈ x.held.map (·.1)) :
    (removing x = false → upRank l' < upRank l) ∧
      (evicting x = false → downRank l' < downRank l) := by
  obtain ⟨h', hm, rfl⟩ := List.mem_map.mp hl
  obtain ⟨m, next, hp⟩ : ∃ m next, x.prog = acquire l m next := by
    unfold Thread.wants at hw
    split at hw
    · cases hw
      exact ⟨_, _, ‹_›⟩
    · cases hw
  cases h with
  | nests hc hn =>
    rw [hp] at hn
    obtain ⟨hne, rfl⟩ := hn.1 h' hm
    cases hfst : h'.1 <;> simp_all [upRank, downRank]
  | register | numbered | unregister => cases hm
  | supersede | leave => cases hp
  | evict hc =>
    cases hp
    cases List.mem_singleton.mp hm
    exact ⟨fun _ => Nat.succ_pos _, fun h => (by cases h)⟩
  | remove hp' =>
    cases hp' with
    | start => cases hm
    | flag | unlist =>
      cases hp
      cases List.mem_singleton.mp hm
      exact ⟨fun h => (by cases h), fun _ => Nat.succ_pos _⟩
    | look | flagged | unflag | listed | unlisted | leave | done => cases hp

theorem Untangled.no_circle (I : Untangled w) (t : Nat) : ¬Relation.TransGen w.WaitsOn t t := by
  rcases I.apart with h | h
  · refine World.no_circle_of_rank downRank (fun u l l' hw hh => ?_) t
    obtain ⟨x, hx, hw⟩ := hw
    obtain ⟨y, hy, hl⟩ := hh
    cases hx.symm.trans hy
    exact ((I.phase u x hx).ranked hw hl).2 (h u x hx)
  · refine World.no_circle_of_rank upRank (fun u l l' hw hh => ?_) t
    obtain ⟨x, hx, hw⟩ := hw
    obtain ⟨y, hy, hl⟩ := hh
    cases hx.symm.trans hy
    exact ((I.phase u x hx).ranked hw hl).1 (h u x hx)

/-- In every interleaving in which evictions and removals stay apart, no circle of calls wait for
each other. -/
theorem locks_no_circle {r : Registry} {actions : List (Action RegistryCall)}
    (H : run (World.step RegistryCall.program) ⟨r, ∅⟩ actions = some w)
    (hm : Meets (World.step RegistryCall.program) (fun w a => Apart w a) ⟨r, ∅⟩ actions) (t : Nat) :
    ¬Relation.TransGen w.WaitsOn t t := by
  have I : Untangled w := by
    refine run_invariant_of_meets (fun {w a w'} I hg H => ?_) hm
      ⟨fun _ _ h => (by cases h), .inl fun _ _ h => (by cases h)⟩ H
    cases a with
    | call t c => exact I.call H
    | go t => exact I.go hg H
  exact I.no_circle t

namespace Sample

open RegistryRun.Sample (key)

/-- A connected machine with one service. -/
def busy : Registry :=
  (RegistryCall.installService ⟨key, 1, "web", 1⟩ "ann-laptop-web.example.com" 5 0).apply <|
    (RegistryCall.registerConnection key 0 0).apply { tunnelDomain := "example.com" }

/-- The machine connects again. -/
def supersedes : List (Action RegistryCall) :=
  .call 0 (.registerConnection key 1 0) :: .replicate 3 (.go 0)

/-- Its service is released. -/
def releases : List (Action RegistryCall) :=
  .call 1 (.unregisterService key "ann-laptop-web.example.com" 0) :: .replicate 5 (.go 1)

end Sample

open Sample in
theorem locks_no_circle_releases : ∃ w, run (World.step RegistryCall.program) ⟨busy, ∅⟩
      (releases ++ .replicate 4 (.go 1) ++ supersedes) = some w ∧
    ∀ t, ¬Relation.TransGen w.WaitsOn t t := by
  obtain ⟨w, H⟩ : ∃ w, run (World.step RegistryCall.program) ⟨busy, ∅⟩
      (releases ++ .replicate 4 (.go 1) ++ supersedes) = some w :=
    Option.isSome_iff_exists.mp (by decide +kernel)
  exact ⟨w, H, locks_no_circle H (by decide +kernel)⟩

open Sample in
/-- The machine connects again while its service is released: each call waits for the lock the other
holds. -/
theorem locks_circle : ∃ w,
    run (World.step RegistryCall.program) ⟨busy, ∅⟩ (supersedes ++ releases) = some w ∧
    w.WaitsOn 0 1 ∧ w.WaitsOn 1 0 ∧ (w.step RegistryCall.program (.go 0)).isNone ∧
    (w.step RegistryCall.program (.go 1)).isNone := by
  have h : (run (World.step RegistryCall.program) ⟨busy, ∅⟩ (supersedes ++ releases)).any fun w =>
      decide (w.WaitsOn 0 1 ∧ w.WaitsOn 1 0 ∧ (w.step RegistryCall.program (.go 0)).isNone ∧
        (w.step RegistryCall.program (.go 1)).isNone) := by
    decide +kernel
  obtain ⟨w, hw, h⟩ := (Option.any_eq_true _ _).mp h
  exact ⟨w, hw, of_decide_eq_true h⟩

end TunnelWeaver.Server
