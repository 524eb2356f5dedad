import TunnelWeaver.Client.Unpair
import TunnelWeaver.Server.Withdrawal

/-! While a client unpairs and the store answers the key lookup of the handshake, what the relay says
of the key is true, and so is what the client concludes. -/

namespace TunnelWeaver.Client.Unpair

open Automaton
open Mux (CloseCode KeyId StreamId)
open Proto (ControlReply Postcard)
open Server (MachineStore Registry)
open Server.RevokeReply (Tunnel)

/-! ## The client -/

/-- The relay has said that no machine holds the key. -/
def Outcome.withdraws : Outcome → Bool
  | .failed _ => false
  | _ => true

def ToClient.withdraws [DebugFns] [Postcard] : ToClient → Bool
  | .welcome => false
  | .reject code _ => code = .unknownKey
  | .message _ msg => (Revoke.replied msg).withdraws

/-- An event that sets an outcome passes on what the relay has said. -/
theorem withdraws_onEvent [DebugFns] [Postcard] {h : Revoke} {opened : Except String StreamId}
    {m : ToClient} (hnone : h.outcome = none)
    (hw : (h.onEvent opened m).1.outcome.any Outcome.withdraws = true) :
    m.withdraws = true := by
  cases m with
  | welcome =>
    cases opened with
    | ok id => simp [Revoke.onEvent, hnone] at hw
    | error e => simp [Revoke.onEvent, Revoke.settle, Outcome.withdraws] at hw
  | reject code message =>
    cases code with
    | unknownKey => rfl
    | unsupportedVersion min max => simp [Revoke.onEvent, Outcome.withdraws] at hw
    | badSignature => simp [Revoke.onEvent, Outcome.withdraws] at hw
  | message id msg =>
    simp only [Revoke.onEvent] at hw
    split at hw
    · exact hw
    · simp [hnone] at hw

/-- Only a confirmed outcome lets `unpair` go on. -/
theorem withdraws_of_conclude [DebugFns] {h : Revoke} {closed : Except String CloseCode}
    {revoked : Bool} (hok : h.conclude closed = .ok revoked) :
    h.outcome.any Outcome.withdraws = true := by
  unfold Revoke.conclude at hok
  split at hok
  · rename_i ho
    rw [ho]
    rfl
  · rename_i ho
    rw [ho]
    rfl
  · cases hok
  · cases hok

theorem hello_not_mem_onEvent [DebugFns] [Postcard] (h : Revoke) (opened : Except String StreamId)
    (m : ToClient) (key : KeyId) : .hello key ∉ (h.onEvent opened m).2 := by
  intro hkey
  cases m with
  | welcome => cases opened <;> simp [Revoke.onEvent] at hkey
  | reject code message => cases code <;> simp [Revoke.onEvent] at hkey
  | message id msg =>
    simp only [Revoke.onEvent] at hkey
    split at hkey <;> cases hkey

theorem get?_of_pairedRelay {t : Relays} {adminHost : String} {id : Nat} {r : Relay}
    (h : pairedRelay t adminHost = .ok (id, r)) : t.get? id = some r := by
  unfold pairedRelay at h
  split at h
  · split at h
    · cases h
    · rename_i hfind
      cases h
      exact (Table.find?_some hfind).1
  · split at h
    · cases h
    · split at h
      · cases h
      · cases h
      · rename_i hrelay
        cases h
        exact Relays.get?_of_relay hrelay

section Caller

variable (adminHost : String) (relays : Relays) (G : Prop)

/-- The relay is forgotten, and that was right if `G` is. -/
def Forgotten (c : Caller) : Prop :=
  ∃ id r, pairedRelay relays adminHost = .ok (id, r) ∧ c.relay = some (id, r) ∧
    (∀ i, (c.relays.get? i).isSome = (decide (i ≠ id) && (relays.get? i).isSome)) ∧
    (G ∨ c.pairedKey = some .lost)

/-- What holds of the caller in each phase, where `G` is that no machine holds the key. -/
def Stands (c : Caller) : Prop :=
  match c.phase with
  | .reading | .opening | .dialing => c.relays = relays
  | .driving h => c.relays = relays ∧ (h.outcome.any Outcome.withdraws = true → G)
  | .forgetting _ => c.relays = relays ∧ (G ∨ c.pairedKey = some .lost)
  | .counting .. | .returned (.ok _) => Forgotten adminHost relays G c
  | .returned (.error _) => c.relays = relays ∨ Forgotten adminHost relays G c

structure Sound (c : Caller) : Prop where
  relay : ∀ e, c.relay = some e → pairedRelay relays adminHost = .ok e
  stands : Stands adminHost relays G c

end Caller

variable {adminHost : String} {relays : Relays} {G G' : Prop} {c : Caller} {id : Nat} {r : Relay}

theorem Forgotten.mono (h : Forgotten adminHost relays G c) (hG : G → G') :
    Forgotten adminHost relays G' c := by
  obtain ⟨id, r, hpaired, hrelay, hget, hright⟩ := h
  exact ⟨id, r, hpaired, hrelay, hget, hright.imp_left hG⟩

theorem Sound.mono (h : Sound adminHost relays G c) (hG : G → G') :
    Sound adminHost relays G' c := by
  refine ⟨h.relay, ?_⟩
  have hstands := h.stands
  unfold Stands at hstands ⊢
  split at hstands
  · exact hstands
  · exact hstands
  · exact hstands
  · exact hstands.imp_right fun hw ho => hG (hw ho)
  · exact hstands.imp_right fun hw => hw.imp_left hG
  · exact hstands.mono hG
  · exact hstands.mono hG
  · exact hstands.imp_right fun hf => hf.mono hG

/-- Failing before the relay is forgotten. -/
theorem Sound.fail (h : Sound adminHost relays G c) (hrelays : c.relays = relays) (e : Error) :
    Sound adminHost relays G (c.fail e) := ⟨h.relay, .inl hrelays⟩

theorem Sound.read (h : Sound adminHost relays G c) (hphase : c.phase = .reading)
    (answer : Except String Unit) : Sound adminHost relays G (c.read adminHost answer) := by
  have hrelays : c.relays = relays := by simpa [Stands, hphase] using h.stands
  unfold Caller.read
  split
  · exact h.fail hrelays _
  · split
    · exact h.fail hrelays _
    · rename_i e he
      rw [hrelays] at he
      refine ⟨?_, hrelays⟩
      intro e' he'
      cases he'
      exact he

theorem Sound.openKey (h : Sound adminHost relays G c) (hphase : c.phase = .opening)
    (answer : Except String Opened) : Sound adminHost relays G (c.openKey r answer) := by
  have hrelays : c.relays = relays := by simpa [Stands, hphase] using h.stands
  unfold Caller.openKey
  split
  · exact h.fail hrelays _
  · exact ⟨h.relay, hrelays⟩
  · exact ⟨h.relay, hrelays, .inr rfl⟩

theorem Sound.dial (h : Sound adminHost relays G c) (hphase : c.phase = .dialing)
    (answer : Except String Unit) : Sound adminHost relays G (c.dial r answer) := by
  have hrelays : c.relays = relays := by simpa [Stands, hphase] using h.stands
  unfold Caller.dial
  split
  · exact h.fail hrelays _
  · exact h.fail hrelays _
  · refine ⟨h.relay, hrelays, ?_⟩
    intro hw
    cases hw

theorem Sound.deliver [DebugFns] [Postcard] {handler : Revoke} {m : ToClient} (h : Sound adminHost relays G c) (hphase : c.phase = .driving handler)
    (hnone : handler.outcome = none) (hG : m.withdraws = true → G)
    (opened : Except String StreamId) :
    Sound adminHost relays G { c with phase := .driving (handler.onEvent opened m).1 } := by
  have hstands : c.relays = relays ∧ (handler.outcome.any Outcome.withdraws = true → G) := by
    simpa [Stands, hphase] using h.stands
  exact ⟨h.relay, hstands.1, fun hw => hG (withdraws_onEvent hnone hw)⟩

theorem Sound.ended [DebugFns] {handler : Revoke} (h : Sound adminHost relays G c)
    (hphase : c.phase = .driving handler) (closed : Except String CloseCode) :
    Sound adminHost relays G (c.ended handler closed) := by
  have hstands : c.relays = relays ∧ (handler.outcome.any Outcome.withdraws = true → G) := by
    simpa [Stands, hphase] using h.stands
  unfold Caller.ended
  split
  · exact h.fail hstands.1 _
  · rename_i hok
    exact ⟨h.relay, hstands.1, .inl (hstands.2 (withdraws_of_conclude hok))⟩

theorem Sound.forget {revoked : Bool} (hhosts : Relays.HostsCanonical relays)
    (h : Sound adminHost relays G c) (hphase : c.phase = .forgetting revoked)
    (hrelay : c.relay = some (id, r)) (answer : Except String Unit) :
    Sound adminHost relays G (c.forget r revoked answer) := by
  have hstands : c.relays = relays ∧ (G ∨ c.pairedKey = some .lost) := by
    simpa [Stands, hphase] using h.stands
  unfold Caller.forget
  split
  · exact h.fail hstands.1 _
  · have hpaired := h.relay _ hrelay
    obtain ⟨t', next, hforget, hget⟩ := Relays.forget_eq hhosts (get?_of_pairedRelay hpaired)
    rw [hstands.1, hforget]
    exact ⟨h.relay, id, r, hpaired, hrelay, hget, hstands.2⟩

theorem Sound.count {revoked : Bool} {next : Option Relay} (h : Sound adminHost relays G c)
    (hphase : c.phase = .counting revoked next) (answer : Except String Unit) :
    Sound adminHost relays G (c.count r revoked next answer) := by
  have hstands : Forgotten adminHost relays G c := by simpa [Stands, hphase] using h.stands
  unfold Caller.count
  split
  · exact ⟨h.relay, .inr hstands⟩
  · exact ⟨h.relay, hstands⟩

theorem Forgotten.deleted (h : Forgotten adminHost relays G c) :
    ∃ id r, relays.get? id = some r ∧ c.relays.get? id = none := by
  obtain ⟨id, r, hpaired, -, hget, -⟩ := h
  refine ⟨id, r, get?_of_pairedRelay hpaired, Option.not_isSome_iff_eq_none.mp ?_⟩
  simp [hget id]

/-- The table changes only when the relay is forgotten. -/
theorem Sound.table (h : Sound adminHost relays G c) :
    c.relays = relays ∨ Forgotten adminHost relays G c := by
  have hstands := h.stands
  unfold Stands at hstands
  split at hstands
  · exact .inl hstands
  · exact .inl hstands
  · exact .inl hstands
  · exact .inl hstands.1
  · exact .inl hstands.1
  · exact .inr hstands
  · exact .inr hstands
  · exact hstands

/-- The pairing being undone is known until the caller returns. -/
theorem Sound.holds (h : Sound adminHost relays G c)
    (hpaired : pairedRelay relays adminHost = .ok (id, r)) : holds c r.keyId = true := by
  rcases h.table with hrelays | ⟨id', r', hpaired', hrelay, -⟩
  · have hmem := Table.get?_eq_some.mp (get?_of_pairedRelay hpaired)
    rw [← hrelays] at hmem
    exact (Bool.or_eq_true ..).mpr (.inl (List.any_eq_true.mpr ⟨_, hmem, by simp⟩))
  · cases hpaired.symm.trans hpaired'
    simp [Unpair.holds, hrelay]

/-! ## Both sides -/

section World

variable (adminHost : String) (relays : Relays)

/-- The key of the pairing being undone. -/
def Ours (key : KeyId) : Prop := ∃ id r, pairedRelay relays adminHost = .ok (id, r) ∧ r.keyId = key

/-- No machine holds it. -/
def Gone (s : MachineStore) : Prop :=
  ∀ id r, pairedRelay relays adminHost = .ok (id, r) → s.machineByKey r.keyId = none

/-- What is on the way, and where it was said, holds. -/
structure Tracked [DebugFns] [Postcard] (w : World) : Prop where
  keys : w.relay.store.KeysUnique
  client : Sound adminHost relays (Gone adminHost relays w.relay.store) w.client
  hello : ∀ key, .hello key ∈ w.toRelay → Ours adminHost relays key
  tunnel : ∀ t, w.tunnel = some t → Ours adminHost relays t.key
  told : w.relay.Told → Gone adminHost relays w.relay.store
  sent : ∀ m ∈ w.toClient, m.withdraws = true → Gone adminHost relays w.relay.store

end World

variable {w w' : World} {s s' : MachineStore} {key : KeyId} {t : Tunnel}

theorem Ours.gone (h : Ours adminHost relays key) (hnone : s.machineByKey key = none) :
    Gone adminHost relays s := by
  intro id r hpaired
  obtain ⟨id', r', hpaired', hkey⟩ := h
  cases hpaired.symm.trans hpaired'
  rw [hkey, hnone]

theorem Gone.revokeMachine (h : Gone adminHost relays s) :
    Gone adminHost relays (s.revokeMachine key) :=
  fun id r hpaired => MachineStore.machineByKey_revokeMachine_none (h id r hpaired)

/-- The machines that are created meanwhile hold other keys. -/
theorem Sound.createMachine {person : Nat} {name : String} (h : Sound adminHost relays G c)
    (hholds : ¬Unpair.holds c key = true) (hgone : Gone adminHost relays s) :
    Gone adminHost relays (s.createMachine person name key) := by
  intro id r hpaired
  refine MachineStore.machineByKey_createMachine_none (hgone id r hpaired) ?_
  rintro rfl
  exact hholds (h.holds hpaired)

theorem Gone.of_step {relay relay' : Server.RevokeReply.World} {a : Server.RevokeReply.Act}
    (hstep : relay.step t a = some relay')
    (ha : ∀ person name key, a ≠ .createMachine person name key)
    (h : Gone adminHost relays relay.store) : Gone adminHost relays relay'.store := by
  rcases Server.RevokeReply.World.store_of_step hstep ha with hs | ⟨key, hs⟩
  · rw [hs]
    exact h
  · rw [hs]
    exact h.revokeMachine

theorem openPairedKey_ne_error {r : Relay} {answer : Except String Opened} {e : Error}
    (h : answer.isOk = true) : openPairedKey r answer ≠ .error e := by
  cases answer with
  | error _ => cases h
  | ok opened =>
    intro he
    cases opened <;> cases he

theorem parse_of_canonical {r : Relay} (h : normalizeAdminHost r.adminHost = .ok r.adminHost) :
    ∃ host, AdminHost.parse r.adminHost = .ok host := by
  unfold normalizeAdminHost at h
  cases hparse : AdminHost.parse r.adminHost with
  | error e =>
    rw [hparse] at h
    cases h
  | ok host => exact ⟨host, rfl⟩

variable [DebugFns] [Postcard]

/-- A step that leaves the machines as they are. -/
theorem Tracked.of_client (h : Tracked adminHost relays w) {c : Caller}
    (hc : Sound adminHost relays (Gone adminHost relays w.relay.store) c) :
    Tracked adminHost relays { w with client := c } :=
  ⟨h.keys, hc, h.hello, h.tunnel, h.told, h.sent⟩

/-- A step of the machines, and of the requests at the relay. -/
theorem Tracked.of_relay (h : Tracked adminHost relays w) {relay : Server.RevokeReply.World}
    (hkeys : relay.store.KeysUnique)
    (hgone : Gone adminHost relays w.relay.store → Gone adminHost relays relay.store)
    (htold : relay.Told → Gone adminHost relays relay.store) :
    Tracked adminHost relays { w with relay } where
  keys := hkeys
  client := h.client.mono hgone
  hello := h.hello
  tunnel := h.tunnel
  told := htold
  sent m hm hw := hgone (h.sent m hm hw)

/-- A message to the client that is true of the machines. -/
theorem Tracked.send (h : Tracked adminHost relays w) {m : ToClient}
    (hm : m.withdraws = true → Gone adminHost relays w.relay.store) :
    Tracked adminHost relays { w with toClient := w.toClient ++ [m] } where
  keys := h.keys
  client := h.client
  hello := h.hello
  tunnel := h.tunnel
  told := h.told
  sent m' hm' := by
    rcases List.mem_append.mp hm' with hm' | hm'
    · exact h.sent m' hm'
    · rw [List.mem_singleton.mp hm']
      exact hm

theorem Tracked.stepRelay (h : Tracked adminHost relays w) {a : Server.RevokeReply.Act}
    {relay : Server.RevokeReply.World} (ht : w.tunnel = some t)
    (ha : ∀ person name key, a ≠ .createMachine person name key)
    (hstep : w.relay.step t a = some relay) : Tracked adminHost relays { w with relay } := by
  have hstore := Server.RevokeReply.World.store_of_step hstep ha
  have hkeys : relay.store.KeysUnique := by
    rcases hstore with hs | ⟨key, hs⟩
    · rw [hs]
      exact h.keys
    · rw [hs]
      exact h.keys.revokeMachine
  refine h.of_relay hkeys (Gone.of_step hstep ha) fun htold => ?_
  rcases Server.RevokeReply.World.told_of_step hstep htold with htold | hrevoked
  · exact Gone.of_step hstep ha (h.told htold)
  · rw [hrevoked]
    exact (h.tunnel t ht).gone (MachineStore.machineByKey_revokeMachine h.keys)

/-- A reply that is true of the machines. -/
theorem Tracked.reply (h : Tracked adminHost relays w) {id : StreamId} {reply : ControlReply}
    (hreply : reply = .revoked → Gone adminHost relays w.relay.store)
    (hkind : reply = .revoked ∨ ∃ code message, reply = .refused code message) :
    Tracked adminHost relays (w.reply id reply) := by
  unfold World.reply
  split
  · rename_i msg hmsg
    refine h.send fun hw => hreply ?_
    rcases hkind with hkind | ⟨code, message, hkind⟩
    · exact hkind
    · have hdecode := Postcard.controlReply.decode_encode hmsg
      simp [ToClient.withdraws, Revoke.replied, hdecode, hkind, Outcome.withdraws] at hw
  · exact h

/-- What a command sends was told when it was handed to the driver. -/
theorem Tracked.sends (h : Tracked adminHost relays w) (c : Server.RevokeReply.Command)
    (htold : ∀ id, c = .reply id → Gone adminHost relays w.relay.store) :
    Tracked adminHost relays (w.sends c) := by
  cases c with
  | reply id => exact h.reply (fun _ => htold id rfl) (.inl rfl)
  | refuse id => exact h.reply (fun hr => absurd hr ControlReply.noConfusion) (.inr ⟨_, _, rfl⟩)
  | close code => exact h

theorem Tracked.tail (h : Tracked adminHost relays w) {toRelay : List ToRelay}
    (hsub : ∀ m ∈ toRelay, m ∈ w.toRelay) : Tracked adminHost relays { w with toRelay } :=
  ⟨h.keys, h.client, fun key hkey => h.hello key (hsub _ hkey), h.tunnel, h.told, h.sent⟩

theorem Tracked.refuse (h : Tracked adminHost relays w) {code : Mux.RejectCode} {message : String}
    (hgone : code = .unknownKey → Gone adminHost relays w.relay.store) :
    Tracked adminHost relays (w.refuse code message) := by
  have hsend : Tracked adminHost relays
      { w with toClient := w.toClient ++ [.reject code message] } :=
    h.send fun hw => hgone (of_decide_eq_true hw)
  exact hsend.of_relay hsend.keys id hsend.told

theorem Tracked.lookup (h : Tracked adminHost relays w) (hours : Ours adminHost relays key)
    (closeTx : Server.Oneshot) (now : Int) :
    Tracked adminHost relays (w.lookup key false closeTx now) := by
  unfold World.lookup
  split
  · rename_i hnone
    refine h.refuse fun _ => hours.gone ?_
    simpa using hnone
  · have hsend := h.send (m := .welcome) fun hw => absurd hw Bool.false_ne_true
    refine ⟨hsend.keys, hsend.client, hsend.hello, ?_, hsend.told, hsend.sent⟩
    intro t ht
    cases ht
    exact hours

theorem Tracked.step {a : Act} (hhosts : Relays.HostsCanonical relays)
    (h : Tracked adminHost relays w) (hanswered : w.Answered a)
    (hstep : w.step adminHost a = some w') : Tracked adminHost relays w' := by
  cases a with
  | read answer =>
    simp only [World.step] at hstep
    split at hstep
    · rename_i hphase
      cases hstep
      exact h.of_client (h.client.read hphase answer)
    · cases hstep
  | openKey answer =>
    simp only [World.step] at hstep
    split at hstep
    · rename_i hphase _
      cases hstep
      exact h.of_client (h.client.openKey hphase answer)
    · cases hstep
  | dial answer =>
    simp only [World.step] at hstep
    split at hstep
    · rename_i id r hphase hrelay
      cases hstep
      have hc := h.of_client (h.client.dial (r := r) hphase answer)
      refine ⟨hc.keys, hc.client, ?_, hc.tunnel, hc.told, hc.sent⟩
      intro key hkey
      dsimp only [Caller.hello] at hkey
      split at hkey
      · cases List.mem_singleton.mp hkey
        exact ⟨id, r, h.client.relay _ hrelay, rfl⟩
      · cases hkey
    · cases hstep
  | deliver opened =>
    simp only [World.step] at hstep
    split at hstep
    · rename_i handler received toClient hphase hreceived
      split at hstep
      · cases hstep
      · rename_i hnone
        cases hstep
        have hgone := h.sent received (by rw [hreceived]; exact List.mem_cons_self)
        have hc := h.of_client
          (h.client.deliver hphase (by simpa using hnone) hgone opened)
        refine ⟨hc.keys, hc.client, ?_, hc.tunnel, hc.told, ?_⟩
        · intro key hkey
          rcases List.mem_append.mp hkey with hkey | hkey
          · exact h.hello key hkey
          · exact absurd hkey (hello_not_mem_onEvent _ _ _ _)
        · intro m hm
          exact h.sent m (by rw [hreceived]; exact List.mem_cons_of_mem _ hm)
    · cases hstep
  | ended closed =>
    simp only [World.step] at hstep
    split at hstep
    · rename_i hphase
      cases hstep
      exact h.of_client (h.client.ended hphase closed)
    · cases hstep
  | forget answer =>
    simp only [World.step] at hstep
    split at hstep
    · rename_i hphase hrelay
      cases hstep
      exact h.of_client (h.client.forget hhosts hphase hrelay answer)
    · cases hstep
  | count answer =>
    simp only [World.step] at hstep
    split at hstep
    · rename_i hphase _
      cases hstep
      exact h.of_client (h.client.count hphase answer)
    · cases hstep
  | lookup fails closeTx now =>
    simp only [World.step] at hstep
    split at hstep
    · rename_i key toRelay hhello
      split at hstep
      · cases hstep
      · cases hstep
        cases (hanswered : fails = false)
        have hours := h.hello key (by rw [hhello]; exact List.mem_cons_self)
        refine Tracked.lookup (h.tail fun m hm => ?_) hours closeTx now
        rw [hhello]
        exact List.mem_cons_of_mem _ hm
    · cases hstep
  | reject code message =>
    simp only [World.step] at hstep
    split at hstep
    · rename_i key toRelay hhello
      split at hstep
      · cases hstep
      · rename_i hopen
        cases hstep
        refine Tracked.refuse (h.tail fun m hm => ?_) ?_
        · rw [hhello]
          exact List.mem_cons_of_mem _ hm
        · intro hcode
          exact absurd (by simp [hcode]) hopen
    · cases hstep
  | receive =>
    simp only [World.step] at hstep
    split at hstep
    · rename_i id toRelay t hrevoke ht
      obtain ⟨relay, hrelay, rfl⟩ := Option.map_eq_some_iff.mp hstep
      refine (h.stepRelay ht (fun _ _ _ => Server.RevokeReply.Act.noConfusion) hrelay).tail ?_
      intro m hm
      change m ∈ w.toRelay
      rw [hrevoke]
      exact List.mem_cons_of_mem _ hm
    · cases hstep
  | relay a =>
    simp only [World.step] at hstep
    split at hstep
    · cases hstep
    · rename_i t ht
      split at hstep
      · rename_i hof
        obtain ⟨relay, hrelay, rfl⟩ := Option.map_eq_some_iff.mp hstep
        have ha : ∀ person name key, a ≠ .createMachine person name key := by
          rintro person name key rfl
          exact absurd hof Bool.false_ne_true
        have hnext := h.stepRelay ht ha hrelay
        split
        · rename_i c commands hcommands
          refine hnext.sends c fun id hc => Gone.of_step hrelay ha (h.told (.inr ⟨id, ?_⟩))
          rw [hcommands, hc]
          exact List.mem_cons_self
        · exact hnext
      · cases hstep
  | relayEnded =>
    cases hstep
    exact h.of_relay h.keys id h.told
  | deleteMachine key =>
    cases hstep
    exact h.of_relay h.keys.revokeMachine Gone.revokeMachine fun ht => (h.told ht).revokeMachine
  | createMachine person name key =>
    simp only [World.step] at hstep
    split at hstep
    · cases hstep
    · rename_i hholds
      cases hstep
      exact h.of_relay h.keys.createMachine (h.client.createMachine hholds) fun ht =>
        h.client.createMachine hholds (h.told ht)

end TunnelWeaver.Client.Unpair
