import TunnelWeaver.Client.Agreement
import TunnelWeaver.Proto.Postcard

/-! Unpairing agrees on both sides as long as the store answers the key lookup of the handshake: the
client forgets a relay only when no machine there holds its key, or when it has lost the key, and
unpairing again after a loss forgets it. A lookup that fails looks to the client like a key that the
relay does not know. -/

namespace TunnelWeaver.Client.Unpair

open Automaton
open Mux (KeyId)
open Proto (Postcard)
open Server (MachineStore Registry)

variable {adminHost : String} {relays : Relays} {id : Nat} {r : Relay} {w w' : World} {key : KeyId}

section Recovery

variable [DebugFns] [Postcard]

/-! ## Unpairing again -/

/-- Nothing was sent yet. -/
def Quiet (w : World) : Prop := w.toRelay = [] ∧ w.toClient = [] ∧ w.relay.closed = false

/-- Where `unpair` is when the machine is gone: the relay rejects the key, and nothing else is on the
way. -/
def Stage (id : Nat) (r : Relay) (w : World) : Prop :=
  match w.client.phase with
  | .reading => Quiet w
  | .opening | .dialing => w.client.relay = some (id, r) ∧ Quiet w
  | .driving h => w.client.relay = some (id, r) ∧
      (h.outcome = none ∧ w.toRelay = [.hello r.keyId] ∧ w.toClient = [] ∧ w.relay.closed = false ∨
        h.outcome = none ∧ w.toRelay = [] ∧ (∃ m, w.toClient = [.reject .unknownKey m]) ∨
        w.toRelay = [] ∧ ∃ m, h.outcome = some (.unknownKey m))
  | .forgetting _ | .counting .. => w.client.relay = some (id, r) ∧ w.toRelay = []
  | .returned result => (∃ unpaired, result = .ok unpaired) ∧ w.toRelay = []

/-- How many steps `unpair` has to take. -/
def rank (w : World) : Nat :=
  match w.client.phase with
  | .reading => 8
  | .opening => 7
  | .dialing => 6
  | .driving h => if h.outcome.isSome then 3 else 4 + w.toRelay.length
  | .forgetting _ => 2
  | .counting .. => 1
  | .returned _ => 0

structure Again (adminHost : String) (relays : Relays) (id : Nat) (r : Relay) (w : World) :
    Prop where
  tracked : Tracked adminHost relays w
  gone : Gone adminHost relays w.relay.store
  tunnel : w.tunnel = none
  stage : Stage id r w

omit [DebugFns] [Postcard] in
/-- The relay still has to look the key up only while the client waits for that. -/
theorem stage_of_hello {toRelay : List ToRelay} (h : Stage id r w)
    (hhello : w.toRelay = .hello key :: toRelay) :
    ∃ handler, w.client.phase = .driving handler ∧ handler.outcome = none ∧
      w.client.relay = some (id, r) ∧ w.toClient = [] ∧ toRelay = [] := by
  unfold Stage at h
  split at h
  · cases hhello.symm.trans h.1
  · cases hhello.symm.trans h.2.1
  · cases hhello.symm.trans h.2.1
  · rename_i handler hphase
    obtain ⟨hrelay, ⟨hnone, htoRelay, hnil, -⟩ | ⟨-, htoRelay, -⟩ | ⟨htoRelay, -⟩⟩ := h
    · cases hhello.symm.trans htoRelay
      exact ⟨handler, hphase, hnone, hrelay, hnil, rfl⟩
    · cases hhello.symm.trans htoRelay
    · cases hhello.symm.trans htoRelay
  · cases hhello.symm.trans h.2
  · cases hhello.symm.trans h.2
  · cases hhello.symm.trans h.2

/-- A step that `unpair` takes, or another that does not delay it. -/
structure Advance (adminHost : String) (relays : Relays) (id : Nat) (r : Relay) (a : Act)
    (w w' : World) : Prop where
  gone : Gone adminHost relays w'.relay.store
  tunnel : w'.tunnel = none
  stage : Stage id r w'
  rank : rank w' + (if a.progresses then 1 else 0) ≤ rank w

theorem Again.advance {a : Act} (hpaired : pairedRelay relays adminHost = .ok (id, r))
    (hhosts : Relays.HostsCanonical relays) (h : Again adminHost relays id r w)
    (hfaultless : w.Faultless a) (hstep : w.step adminHost a = some w') :
    Advance adminHost relays id r a w w' := by
  have hstage := h.stage
  cases a with
  | read answer =>
    cases (hfaultless : answer = .ok ())
    simp only [World.step] at hstep
    split at hstep
    · rename_i hphase
      cases hstep
      simp only [Stage, hphase] at hstage
      have hrelays : w.client.relays = relays := by
        simpa [Stands, hphase] using h.tracked.client.stands
      have hread : w.client.read adminHost (.ok ()) =
          { w.client with relay := some (id, r), phase := .opening } := by
        simp only [Caller.read, hrelays, hpaired]
      rw [hread]
      exact ⟨h.gone, h.tunnel, ⟨rfl, hstage⟩, by simp [rank, hphase, Act.progresses]⟩
    · cases hstep
  | openKey answer =>
    simp only [World.step] at hstep
    split at hstep
    · rename_i id' r' hphase hrelay
      cases hstep
      simp only [Stage, hphase] at hstage
      unfold Caller.openKey
      split
      · rename_i e he
        exact absurd he (openPairedKey_ne_error hfaultless)
      · exact ⟨h.gone, h.tunnel, hstage, by simp [rank, hphase, Act.progresses]⟩
      · exact ⟨h.gone, h.tunnel, ⟨hstage.1, hstage.2.1⟩, by simp [rank, hphase, Act.progresses]⟩
    · cases hstep
  | dial answer =>
    cases (hfaultless : answer = .ok ())
    simp only [World.step] at hstep
    split at hstep
    · rename_i id' r' hphase hrelay
      cases hstep
      simp only [Stage, hphase] at hstage
      cases hrelay.symm.trans hstage.1
      obtain ⟨host, hhost⟩ :=
        parse_of_canonical (hhosts.canonical id r (get?_of_pairedRelay hpaired))
      have hdial : w.client.dial r (.ok ()) =
          { w.client with phase := .driving { host := r.adminHost } } := by
        unfold Caller.dial
        rw [hhost]
      rw [hdial]
      exact ⟨h.gone, h.tunnel, ⟨hrelay, .inl ⟨rfl, rfl, hstage.2.2⟩⟩,
        by simp [rank, hphase, Act.progresses, Caller.hello]⟩
    · cases hstep
  | deliver opened =>
    simp only [World.step] at hstep
    split at hstep
    · rename_i handler received toClient hphase hreceived
      split at hstep
      · cases hstep
      · rename_i hnone
        cases hstep
        simp only [Stage, hphase] at hstage
        obtain ⟨hrelay, ⟨-, -, hnil, -⟩ | ⟨hopen, htoRelay, m, hm⟩ | ⟨-, m, hm⟩⟩ := hstage
        · rw [hnil] at hreceived
          cases hreceived
        · rw [hm] at hreceived
          cases hreceived
          refine ⟨h.gone, h.tunnel, ⟨hrelay, .inr (.inr ⟨?_, m, rfl⟩)⟩, ?_⟩
          · rw [htoRelay]
            rfl
          · simp [rank, hphase, Act.progresses, Revoke.onEvent, hopen, htoRelay]
        · simp [hm] at hnone
    · cases hstep
  | ended closed =>
    simp only [World.step] at hstep
    split at hstep
    · rename_i handler hphase
      cases hstep
      have hsome := hfaultless handler hphase
      simp only [Stage, hphase] at hstage
      obtain ⟨hrelay, ⟨hnone, -⟩ | ⟨hnone, -⟩ | ⟨htoRelay, m, hm⟩⟩ := hstage
      · simp [hnone] at hsome
      · simp [hnone] at hsome
      · have hended : w.client.ended handler closed =
            { w.client with phase := .forgetting false } := by
          simp only [Caller.ended, Revoke.conclude, hm]
        rw [hended]
        exact ⟨h.gone, h.tunnel, ⟨hrelay, htoRelay⟩, by simp [rank, hphase, hm, Act.progresses]⟩
    · cases hstep
  | forget answer =>
    cases (hfaultless : answer = .ok ())
    simp only [World.step] at hstep
    split at hstep
    · rename_i revoked id' r' hphase hrelay
      cases hstep
      simp only [Stage, hphase] at hstage
      have hrelays : w.client.relays = relays := by
        have hstands := h.tracked.client.stands
        simp only [Stands, hphase] at hstands
        exact hstands.1
      cases hrelay.symm.trans hstage.1
      obtain ⟨t', next, hforget, -⟩ := Relays.forget_eq hhosts (get?_of_pairedRelay hpaired)
      have hnext : w.client.forget r revoked (.ok ()) =
          { w.client with relays := t', phase := .counting revoked next } := by
        unfold Caller.forget
        dsimp only
        rw [hrelays, hforget]
      rw [hnext]
      exact ⟨h.gone, h.tunnel, hstage, by simp [rank, hphase, Act.progresses]⟩
    · cases hstep
  | count answer =>
    cases (hfaultless : answer = .ok ())
    simp only [World.step] at hstep
    split at hstep
    · rename_i hphase _
      cases hstep
      simp only [Stage, hphase] at hstage
      exact ⟨h.gone, h.tunnel, ⟨⟨_, rfl⟩, hstage.2⟩,
        by simp [rank, hphase, Act.progresses, Caller.count]⟩
    · cases hstep
  | lookup fails closeTx now =>
    simp only [World.step] at hstep
    split at hstep
    · rename_i key toRelay hhello
      split at hstep
      · cases hstep
      · cases hstep
        have hrefused : World.lookup { w with toRelay } key fails closeTx now =
            World.refuse { w with toRelay } .unknownKey "unknown key" := by
          obtain ⟨id', r', hpaired', hkey⟩ := h.tracked.hello key (by simp [hhello])
          have hnone := h.gone id' r' hpaired'
          rw [hkey] at hnone
          simp only [World.lookup, hnone, Option.isNone_none, Bool.or_true, if_true]
        rw [hrefused]
        have hdriving := stage_of_hello hstage hhello
        obtain ⟨handler, hphase, hnone, hrelay, hnil, hrest⟩ := hdriving
        refine ⟨h.gone, h.tunnel, ?_, ?_⟩
        · simp only [Stage, World.refuse, hphase, hnil, hrest]
          exact ⟨hrelay, .inr (.inl ⟨hnone, trivial, _, rfl⟩)⟩
        · simp [rank, World.refuse, hphase, hnone, hhello, Act.progresses]
    · cases hstep
  | reject code message => exact hfaultless.elim
  | receive =>
    simp only [World.step, h.tunnel] at hstep
    split at hstep
    · rename_i hnone
      cases hnone
    · cases hstep
  | relay a =>
    simp only [World.step, h.tunnel] at hstep
    cases hstep
  | relayEnded => exact hfaultless.elim
  | deleteMachine key =>
    cases hstep
    exact ⟨h.gone.revokeMachine, h.tunnel, hstage, Nat.le_refl _⟩
  | createMachine person name key =>
    simp only [World.step] at hstep
    split at hstep
    · cases hstep
    · rename_i hholds
      cases hstep
      exact ⟨h.tracked.client.createMachine hholds h.gone, h.tunnel, hstage, Nat.le_refl _⟩

/-- While it has not returned, `unpair` can go on. -/
theorem Again.progresses (hpaired : pairedRelay relays adminHost = .ok (id, r))
    (h : Again adminHost relays id r w) :
    (∃ unpaired, w.client.phase = .returned (.ok unpaired) ∧ w.client.relays.get? id = none) ∨
      ∃ a, a.progresses = true ∧ w.Faultless a ∧ (w.step adminHost a).isSome = true := by
  have hstage := h.stage
  cases hphase : w.client.phase with
  | reading => exact .inr ⟨.read (.ok ()), rfl, rfl, by simp [World.step, hphase]⟩
  | opening =>
    simp only [Stage, hphase] at hstage
    exact .inr ⟨.openKey (.ok .belowFloor), rfl, rfl, by simp [World.step, hphase, hstage.1]⟩
  | dialing =>
    simp only [Stage, hphase] at hstage
    exact .inr ⟨.dial (.ok ()), rfl, rfl, by simp [World.step, hphase, hstage.1]⟩
  | driving handler =>
    simp only [Stage, hphase] at hstage
    obtain ⟨-, ⟨-, hhello, -, hopen⟩ | ⟨hnone, -, m, hm⟩ | ⟨-, m, hm⟩⟩ := hstage
    · exact .inr ⟨.lookup false 0 0, rfl, rfl, by
        simp only [World.step, hhello, hopen, Bool.false_eq_true, if_false, Option.isSome_some]⟩
    · exact .inr ⟨.deliver (.ok 0), rfl, rfl, by simp [World.step, hphase, hm, hnone]⟩
    · refine .inr ⟨.ended (.ok .shutdown), rfl, fun handler' hhandler => ?_, ?_⟩
      · cases hphase.symm.trans hhandler
        rw [hm]
        rfl
      · simp [World.step, hphase]
  | forgetting revoked =>
    simp only [Stage, hphase] at hstage
    exact .inr ⟨.forget (.ok ()), rfl, rfl, by simp [World.step, hphase, hstage.1]⟩
  | counting revoked next =>
    simp only [Stage, hphase] at hstage
    exact .inr ⟨.count (.ok ()), rfl, rfl, by simp [World.step, hphase, hstage.1]⟩
  | returned result =>
    simp only [Stage, hphase] at hstage
    obtain ⟨⟨unpaired, rfl⟩, -⟩ := hstage
    have hstands : Forgotten adminHost relays (Gone adminHost relays w.relay.store) w.client := by
      simpa [Stands, hphase] using h.tracked.client.stands
    obtain ⟨id', r', hpaired', -, hget, -⟩ := hstands
    cases hpaired.symm.trans hpaired'
    refine .inl ⟨unpaired, rfl, Option.not_isSome_iff_eq_none.mp ?_⟩
    rw [hget id]
    simp

omit [DebugFns] [Postcard] in
theorem answered_of_faultless {a : Act} (h : w.Faultless a) : w.Answered a := by
  cases a with
  | lookup fails closeTx now => exact h
  | _ => trivial

theorem Again.run {acts : List Act} (hpaired : pairedRelay relays adminHost = .ok (id, r))
    (hhosts : Relays.HostsCanonical relays) (h : Again adminHost relays id r w)
    (hfaultless : Meets (World.step adminHost) World.Faultless w acts)
    (hrun : w.run adminHost acts = some w') :
    Again adminHost relays id r w' ∧ acts.countP Act.progresses + rank w' ≤ rank w := by
  induction acts generalizing w with
  | nil =>
    cases hrun
    exact ⟨h, by simp⟩
  | cons a acts ih =>
    obtain ⟨w₁, h₁, hrun⟩ := run_cons_eq_some.mp hrun
    have hadvance := h.advance hpaired hhosts hfaultless.1 h₁
    have hnext : Again adminHost relays id r w₁ :=
      ⟨h.tracked.step hhosts (answered_of_faultless hfaultless.1) h₁, hadvance.gone,
        hadvance.tunnel, hadvance.stage⟩
    obtain ⟨hagain, hcount⟩ := ih hnext (hfaultless.2 w₁ h₁) hrun
    refine ⟨hagain, ?_⟩
    have hrank := hadvance.rank
    rw [List.countP_cons]
    omega

/-! ## Agreement -/

theorem tracked_start {registry : Registry} {store : MachineStore} (hkeys : store.KeysUnique) :
    Tracked adminHost relays (.start relays registry store) where
  keys := hkeys
  client := ⟨fun _ he => (by cases he), rfl⟩
  hello _ hkey := absurd hkey List.not_mem_nil
  tunnel _ ht := by cases ht
  told htold := by
    rcases htold with ⟨i, r, hi, -⟩ | ⟨i, hi⟩
    · cases hi
    · cases hi
  sent _ hm := absurd hm List.not_mem_nil

theorem again_start {registry : Registry} {store : MachineStore} (hkeys : store.KeysUnique)
    (hgone : Gone adminHost relays store) :
    Again adminHost relays id r (.start relays registry store) :=
  ⟨tracked_start hkeys, hgone, rfl, rfl, rfl, rfl⟩

theorem Tracked.agrees (hhosts : Relays.HostsCanonical relays) (h : Tracked adminHost relays w) :
    w.Agrees adminHost relays where
  deleted i r hi hnone := by
    rcases h.client.table with hsame | ⟨id, r', hpaired, -, hget, hright⟩
    · rw [hsame, hi] at hnone
      cases hnone
    · have hmem := hget i
      rw [hnone, hi] at hmem
      obtain rfl : i = id := by simpa using hmem
      cases hi.symm.trans (get?_of_pairedRelay hpaired)
      exact hright.imp_left fun hgone => hgone i r hpaired
  unchanged := by
    rcases h.client.table with hsame | hforgotten
    · exact .inl hsame
    · obtain ⟨id, r, hsome, hnone⟩ := hforgotten.deleted
      exact .inr ⟨id, r, hsome, hnone⟩
  error hsame result hresult := by
    cases result with
    | error e => exact ⟨e, rfl⟩
    | ok unpaired =>
      have hstands : Forgotten adminHost relays (Gone adminHost relays w.relay.store) w.client := by
        simpa [Stands, hresult] using h.client.stands
      obtain ⟨id, r, hsome, hnone⟩ := hstands.deleted
      rw [hsame, hsome] at hnone
      cases hnone
  forgets _ id r hrelay hnone := by
    intro acts w' hfaultless hrun
    have hpaired := h.client.relay _ hrelay
    have hgone : Gone adminHost relays w.relay.store := by
      intro id' r' hpaired'
      cases hpaired.symm.trans hpaired'
      exact hnone
    have hstart : Again adminHost relays id r
        (.start relays w.relay.registry w.relay.store) := again_start h.keys hgone
    obtain ⟨hagain, hcount⟩ := hstart.run hpaired hhosts hfaultless hrun
    exact ⟨Nat.le_trans (Nat.le_add_right ..) hcount, hagain.progresses hpaired⟩

/-- Where the store answers every lookup of the handshake, both sides agree. -/
theorem unpair_agrees {registry : Registry} {store : MachineStore} {acts : List Act}
    (hhosts : Relays.HostsCanonical relays) (hkeys : store.KeysUnique)
    (hanswered : Meets (World.step adminHost) World.Answered (.start relays registry store) acts)
    (hrun : (World.start relays registry store).run adminHost acts = some w) :
    w.Agrees adminHost relays :=
  Tracked.agrees hhosts (run_invariant_of_meets (I := Tracked adminHost relays)
    (fun h ha hs => h.step hhosts ha hs) hanswered (tracked_start hkeys) hrun)

end Recovery

namespace Sample

scoped instance debugFns : DebugFns where
  closeCode _ := "Rejected"
  controlReply _ := "Revoked"

scoped instance postcard : Postcard := Proto.Formats.postcard

/-- The relay that is paired. -/
def paired : Relay where
  adminHost := "r.io"
  machineId := 1
  keyId := Server.Plane.Sample.keyId 1
  isDefault := true

def table : Relays := Table.insert ∅ paired

def registry : Registry := { tunnelDomain := "t.io" }

/-- `ann` holds the machine. -/
def store : MachineStore :=
  ({} : MachineStore).createPerson 1 "ann" |>.createMachine 1 "laptop" (Server.Plane.Sample.keyId 1)

def dialled : List Act :=
  [.read (.ok ()), .openKey (.ok (.key (Server.Plane.Sample.keyId 1))), .dial (.ok ())]

/-- The connection is lost once the machine is revoked. -/
def lost : List Act := dialled ++ [.lookup false 0 0, .deliver (.ok 1), .receive,
  .relay (.revokeMachine 1 false), .ended (.error "reset")]

/-- The store fails the lookup of the key. -/
def misread : List Act := dialled ++ [.lookup true 0 0, .deliver (.ok 1), .ended (.ok .rejected),
  .forget (.ok ()), .count (.ok ())]

theorem eq_of_get?_table {i : Nat} {r : Relay} (h : table.get? i = some r) : i = 1 ∧ r = paired := by
  rw [table, Table.get?_insert] at h
  split at h
  · rename_i hi
    exact ⟨hi, (Option.some.inj h).symm⟩
  · cases h

theorem hostsCanonical : Relays.HostsCanonical table where
  unique i j r r' hi hj _ := (eq_of_get?_table hi).1.trans (eq_of_get?_table hj).1.symm
  canonical i r h := by
    rw [(eq_of_get?_table h).2]
    decide +kernel

theorem keysUnique : store.KeysUnique := by
  have hempty : MachineStore.KeysUnique (({} : MachineStore).createPerson 1 "ann") :=
    fun _ _ _ _ hi => by cases hi
  exact hempty.createMachine

end Sample

open Sample in
theorem unpair_agrees_lost : ∃ w, (World.start table registry store).run "r.io" lost = some w ∧
    (w.client.relays.get? 1).isSome = true ∧ w.Agrees "r.io" table := by
  have hanswered :
      Meets (World.step "r.io") World.Answered (.start table registry store) lost := by
    decide +kernel
  obtain ⟨w, hrun, hkept⟩ := (Option.any_eq_true (fun w : World => (w.client.relays.get? 1).isSome)
    ((World.start table registry store).run "r.io" lost)).mp (by decide +kernel)
  exact ⟨w, hrun, hkept, unpair_agrees hostsCanonical keysUnique hanswered hrun⟩

open Sample in
/-- A failed lookup makes the client forget a machine that is still there. -/
theorem misread_forgets : ¬∀ (adminHost : String) (relays : Relays) (registry : Registry)
    (store : MachineStore) (acts : List Act) (w : World), Relays.HostsCanonical relays →
    store.KeysUnique → (World.start relays registry store).run adminHost acts = some w →
    w.Agrees adminHost relays := by
  intro h
  obtain ⟨w, hrun, hw⟩ := (Option.any_eq_true (fun w : World =>
      (w.client.relays.get? 1).isNone && (w.relay.store.machineByKey paired.keyId).isSome &&
        decide (w.client.pairedKey = some .valid))
    ((World.start table registry store).run "r.io" misread)).mp (by decide +kernel)
  simp only [Bool.and_eq_true, decide_eq_true_eq, Option.isNone_iff_eq_none] at hw
  obtain ⟨⟨hforgotten, hheld⟩, hvalid⟩ := hw
  have hagrees := h _ _ _ _ _ w hostsCanonical keysUnique hrun
  rcases hagrees.deleted 1 paired rfl hforgotten with hgone | hlost
  · rw [hgone] at hheld
    cases hheld
  · rw [hvalid] at hlost
    cases hlost

end TunnelWeaver.Client.Unpair
