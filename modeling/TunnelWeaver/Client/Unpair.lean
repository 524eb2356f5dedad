import TunnelWeaver.Client.Relays
import TunnelWeaver.Server.RevokeReply

/-! Unpairing (`weave/src/unpair.rs`): a client revokes its machine over a tunnel signed by the very
key, and forgets the relay. The relay looks the key up in the handshake and answers a `Revoke` head
as `Server.RevokeReply` has it. Either end may see the connection end at any point; what it has not
received by then is lost. The answers of the databases, the key agent and the network are letters. -/

namespace TunnelWeaver.Client.Unpair

open Automaton
open Mux (Bytes CloseCode KeyId RejectCode StreamId)
open Proto (ControlReply Postcard)
open Server (MachineStore Oneshot Registry)
open Server.RevokeReply (Tunnel)

/-- The texts of a derived `Debug`. -/
class DebugFns where
  closeCode : CloseCode → String
  controlReply : ControlReply → String

/-- Why a client command failed. -/
inductive Error
  | noRelay
  | notPaired (host : String)
  | key (source : String)
  | unreachable (host source : String)
  | rejected (host : String) (code : RejectCode) (message : String)
  | disconnected (host reason : String)
  | protocol (message : String)
  | store (source : String)
  | host (source : HostError)
  deriving DecidableEq

/-- The device key, checked against what a relay authorised. -/
inductive PairedKey
  | valid
  | lost
  deriving DecidableEq

/-- What the key agent opened. -/
inductive Opened
  | key (id : KeyId)
  | belowFloor
  deriving DecidableEq

/-- `Client::paired_relay`. -/
def pairedRelay (t : Relays) (adminHost : String) : Except Error (Nat × Relay) :=
  if adminHost = "" then match t.findDefault with
    | none => .error .noRelay
    | some relay => .ok relay
  else match normalizeAdminHost adminHost with
    | .error e => .error (.host e)
    | .ok host => match t.relay host with
      | .error e => .error (.host e)
      | .ok none => .error (.notPaired host)
      | .ok (some relay) => .ok relay

/-- `Client::open_paired_key`. -/
def openPairedKey (relay : Relay) : Except String Opened → Except Error PairedKey
  | .ok (.key id) => .ok (if id = relay.keyId then .valid else .lost)
  | .ok .belowFloor => .ok .lost
  | .error e => .error (.key e)

/-- A relay this machine is no longer paired with. -/
structure Unpaired where
  host : String
  revoked : Bool
  /-- The relay that became the default; empty when none did. -/
  newDefault : String
  remaining : Nat
  deriving DecidableEq

inductive Outcome
  | revoked
  /-- The relay does not know the key. -/
  | unknownKey (message : String)
  | failed (error : Error)
  deriving DecidableEq

/-- Opens one control stream, sends `Revoke`, and records the answer. -/
structure Revoke where
  host : String
  stream : Option StreamId := none
  outcome : Option Outcome := none
  deriving DecidableEq

/-- What the relay sends. -/
inductive ToClient
  | welcome
  | reject (code : RejectCode) (message : String)
  | message (id : StreamId) (msg : Bytes)
  deriving DecidableEq

/-- What the client sends. -/
inductive ToRelay
  | hello (key : KeyId)
  | revoke (id : StreamId)
  deriving DecidableEq

namespace Revoke

variable [DebugFns] [Postcard] (h : Revoke)

def settle (outcome : Outcome) : Revoke := { h with outcome := some outcome }

/-- The outcome that a reply says. -/
def replied (msg : Bytes) : Outcome :=
  match Postcard.controlReply.decode msg with
  | .ok .revoked => .revoked
  | .ok (.refused _ message) => .failed (.protocol ("the relay refused: " ++ message))
  | .ok other => .failed (.protocol (DebugFns.controlReply other))
  | .error e => .failed (.protocol e)

/-- `on_event`, where `opened` is what `open_control` answers; what it sends. -/
def onEvent (opened : Except String StreamId) : ToClient → Revoke × List ToRelay
  | .welcome => match opened with
    | .ok id => ({ h with stream := some id }, [.revoke id])
    | .error e => (h.settle (.failed (.protocol e)), [])
  | .reject .unknownKey message => ({ h with outcome := some (.unknownKey message) }, [])
  | .reject code message =>
    ({ h with outcome := some (.failed (.rejected h.host code message)) }, [])
  | .message id msg => if some id = h.stream then (h.settle (replied msg), []) else (h, [])

/-- What `unpair` makes of the outcome, once the driver has ended. -/
def conclude (closed : Except String CloseCode) : Except Error Bool :=
  match h.outcome with
  | some .revoked => .ok true
  | some (.unknownKey _) => .ok false
  | some (.failed error) => .error error
  | none =>
    let reason := match closed with
      | .ok code => "the relay closed the connection (" ++ DebugFns.closeCode code ++ ")"
      | .error e => e
    .error (.disconnected h.host (reason ++ " before confirming the revoke"))

end Revoke

/-- Where `unpair` is. -/
inductive Phase
  | reading
  | opening
  | dialing
  | driving (handler : Revoke)
  | forgetting (revoked : Bool)
  | counting (revoked : Bool) (newDefault : Option Relay)
  | returned (result : Except Error Unpaired)

/-- The caller of `unpair`, with its locals. -/
structure Caller where
  relays : Relays
  relay : Option (Nat × Relay) := none
  pairedKey : Option PairedKey := none
  phase : Phase := .reading

namespace Caller

variable [DebugFns] [Postcard] (c : Caller)

def fail (e : Error) : Caller := { c with phase := .returned (.error e) }

def read (adminHost : String) (answer : Except String Unit) : Caller :=
  match answer with
  | .error e => c.fail (.store e)
  | .ok () => match pairedRelay c.relays adminHost with
    | .error e => c.fail e
    | .ok relay => { c with relay := some relay, phase := .opening }

def openKey (relay : Relay) (answer : Except String Opened) : Caller :=
  match openPairedKey relay answer with
  | .error e => c.fail e
  | .ok .valid => { c with pairedKey := some .valid, phase := .dialing }
  | .ok .lost => { c with pairedKey := some .lost, phase := .forgetting false }

def dial (relay : Relay) (answer : Except String Unit) : Caller :=
  match AdminHost.parse relay.adminHost, answer with
  | .error e, _ => c.fail (.host e)
  | .ok _, .error e => c.fail (.unreachable relay.adminHost e)
  | .ok _, .ok () => { c with phase := .driving { host := relay.adminHost } }

/-- What a client that has dialled sends first. -/
def hello (relay : Relay) : List ToRelay :=
  match c.phase with
  | .driving _ => [.hello relay.keyId]
  | _ => []

/-- The driver has ended. -/
def ended (handler : Revoke) (closed : Except String CloseCode) : Caller :=
  match handler.conclude closed with
  | .error e => c.fail e
  | .ok revoked => { c with phase := .forgetting revoked }

def forget (relay : Relay) (revoked : Bool) (answer : Except String Unit) : Caller :=
  match answer with
  | .error e => c.fail (.store e)
  | .ok () => match Relays.forget c.relays relay.adminHost with
    | .error e => c.fail (.host e)
    | .ok (relays, newDefault) => { c with relays, phase := .counting revoked newDefault }

def count (relay : Relay) (revoked : Bool) (newDefault : Option Relay)
    (answer : Except String Unit) : Caller :=
  match answer with
  | .error e => c.fail (.store e)
  | .ok () => { c with phase := .returned (.ok
      { host := relay.adminHost, revoked, newDefault := (newDefault.map (·.adminHost)).getD ""
        remaining := c.relays.rows.length }) }

end Caller

/-- `tunnel` is the connection that the relay has registered. -/
structure World where
  client : Caller
  toRelay : List ToRelay := []
  toClient : List ToClient := []
  relay : Server.RevokeReply.World
  tunnel : Option Tunnel := none

inductive Act
  /-- The client, in the order of the phases; `deliver` is the next message of the relay. -/
  | read (answer : Except String Unit)
  | openKey (answer : Except String Opened)
  | dial (answer : Except String Unit)
  | deliver (opened : Except String StreamId)
  | ended (closed : Except String CloseCode)
  | forget (answer : Except String Unit)
  | count (answer : Except String Unit)
  /-- The handshake of the relay: the lookup of the key, which the store may fail, or another
  rejection. -/
  | lookup (fails : Bool) (closeTx : Oneshot) (now : Int)
  | reject (code : RejectCode) (message : String)
  /-- The `Revoke` head arrives. -/
  | receive
  | relay (a : Server.RevokeReply.Act)
  /-- The relay sees the connection end. -/
  | relayEnded
  /-- Another request or connection revokes a machine; another device is paired. -/
  | deleteMachine (key : KeyId)
  | createMachine (person : Nat) (name : String) (key : KeyId)

/-- A step of `unpair` or of the handshake it waits for. -/
def Act.progresses : Act → Bool
  | .read _ | .openKey _ | .dial _ | .deliver _ | .ended _ | .forget _ | .count _
  | .lookup .. => true
  | _ => false

/-- A step of the connection, not of the client's messages or of the machines. -/
def ofConnection : Server.RevokeReply.Act → Bool
  | .request _ | .deleteMachine _ | .createMachine .. => false
  | _ => true

/-- `REVOKE_FAILED`. -/
def revokeFailed : String := "the relay could not revoke this machine; try again"

/-- The key is one this client was paired with. -/
def holds (c : Caller) (key : KeyId) : Bool :=
  c.relays.rows.any (fun r => r.2.keyId = key) || c.relay.any (fun r => r.2.keyId = key)

namespace World

variable [DebugFns] [Postcard]

/-- Send a reply on a stream. -/
def reply (w : World) (id : StreamId) (reply : ControlReply) : World :=
  match Postcard.controlReply.encode reply with
  | .ok msg => { w with toClient := w.toClient ++ [.message id msg] }
  | .error _ => w

/-- What a command of the relay sends. -/
def sends (w : World) : Server.RevokeReply.Command → World
  | .reply id => w.reply id .revoked
  | .refuse id => w.reply id (.refused .other revokeFailed)
  | .close _ => w

/-- The relay does not accept the key. -/
def refuse (w : World) (code : RejectCode) (message : String) : World :=
  { w with
    toClient := w.toClient ++ [.reject code message]
    relay := { w.relay with closed := true } }

/-- The key is looked up, and the connection of a client that is authenticated is registered. -/
def lookup (w : World) (key : KeyId) (fails : Bool) (closeTx : Oneshot) (now : Int) : World :=
  if fails || (w.relay.store.machineByKey key).isNone then w.refuse .unknownKey "unknown key"
  else
    let (registry, connectionId, _) := w.relay.registry.registerConnection key closeTx now
    { w with
      toClient := w.toClient ++ [.welcome]
      relay := { w.relay with registry }
      tunnel := some ⟨key, connectionId, closeTx⟩ }

/-- A step of the relay's side of the tunnel, and what a command of it sends. -/
def stepRelay (w : World) (t : Tunnel) (a : Server.RevokeReply.Act) : Option World :=
  (w.relay.step t a).map fun relay => match a, w.relay.commands with
    | .command, c :: _ => { w with relay }.sends c
    | _, _ => { w with relay }

variable (adminHost : String)

def step (w : World) : Act → Option World
  | .read answer => match w.client.phase with
    | .reading => some { w with client := w.client.read adminHost answer }
    | _ => none
  | .openKey answer => match w.client.phase, w.client.relay with
    | .opening, some (_, relay) => some { w with client := w.client.openKey relay answer }
    | _, _ => none
  | .dial answer => match w.client.phase, w.client.relay with
    | .dialing, some (_, relay) =>
      let client := w.client.dial relay answer
      some { w with client, toRelay := client.hello relay }
    | _, _ => none
  | .deliver opened => match w.client.phase, w.toClient with
    | .driving handler, received :: toClient =>
      if handler.outcome.isSome then none
      else
        let (handler, sent) := handler.onEvent opened received
        some { w with
          client := { w.client with phase := .driving handler }
          toClient
          toRelay := w.toRelay ++ sent }
    | _, _ => none
  | .ended closed => match w.client.phase with
    | .driving handler => some { w with client := w.client.ended handler closed }
    | _ => none
  | .forget answer => match w.client.phase, w.client.relay with
    | .forgetting revoked, some (_, relay) =>
      some { w with client := w.client.forget relay revoked answer }
    | _, _ => none
  | .count answer => match w.client.phase, w.client.relay with
    | .counting revoked newDefault, some (_, relay) =>
      some { w with client := w.client.count relay revoked newDefault answer }
    | _, _ => none
  | .lookup fails closeTx now => match w.toRelay with
    | .hello key :: toRelay =>
      if w.relay.closed then none else some ({ w with toRelay }.lookup key fails closeTx now)
    | _ => none
  | .reject code message => match w.toRelay with
    | .hello _ :: toRelay =>
      if w.relay.closed || code = .unknownKey then none
      else some ({ w with toRelay }.refuse code message)
    | _ => none
  | .receive => match w.toRelay, w.tunnel with
    | .revoke id :: toRelay, some t =>
      (w.relay.step t (.request id)).map fun relay => { w with toRelay, relay }
    | _, _ => none
  | .relay a => match w.tunnel with
    | none => none
    | some t => if ofConnection a then w.stepRelay t a else none
  | .relayEnded => some { w with relay := { w.relay with closed := true } }
  | .deleteMachine key =>
    some { w with relay := { w.relay with store := w.relay.store.revokeMachine key } }
  | .createMachine person name key =>
    if holds w.client key then none
    else some { w with relay := { w.relay with
      store := w.relay.store.createMachine person name key } }

def run (w : World) (acts : List Act) : Option World := Automaton.run (step adminHost) w acts

/-- The client calls `unpair`, and the relay accepts a connection. -/
def start (relays : Relays) (registry : Registry) (store : MachineStore) : World where
  client := { relays }
  relay := { registry, store }

/-- The store answers the lookup of the handshake. -/
def Answered (_ : World) : Act → Prop
  | .lookup fails .. => fails = false
  | _ => True

instance (w : World) (a : Act) : Decidable (w.Answered a) := by
  cases a <;> unfold Answered <;> infer_instance

/-- Nothing fails, and the connection does not end before the outcome is known. -/
def Faultless (w : World) : Act → Prop
  | .read answer | .dial answer | .forget answer | .count answer => answer = .ok ()
  | .openKey answer => answer.isOk = true
  | .deliver opened => opened.isOk = true
  | .ended _ => ∀ handler, w.client.phase = .driving handler → handler.outcome.isSome = true
  | .lookup fails .. => fails = false
  | .reject .. | .relayEnded => False
  | .receive | .relay _ | .deleteMachine _ | .createMachine .. => True

/-- Without failures `unpair` ends soon, and with the relay forgotten. -/
def Forgets (id : Nat) (init : World) : Prop :=
  ∀ acts w, Meets (step adminHost) Faultless init acts → init.run adminHost acts = some w →
    acts.countP Act.progresses ≤ 8 ∧
      ((∃ unpaired, w.client.phase = .returned (.ok unpaired) ∧
          w.client.relays.get? id = none) ∨
        ∃ a, a.progresses = true ∧ w.Faultless a ∧ (w.step adminHost a).isSome = true)

/-- Both sides agree on the pairings that the client had. -/
structure Agrees (relays : Relays) (w : World) : Prop where
  deleted : ∀ id r, relays.get? id = some r → w.client.relays.get? id = none →
    w.relay.store.machineByKey r.keyId = none ∨ w.client.pairedKey = some .lost
  unchanged : w.client.relays = relays ∨
    ∃ id r, relays.get? id = some r ∧ w.client.relays.get? id = none
  error : w.client.relays = relays → ∀ result, w.client.phase = .returned result →
    ∃ e, result = .error e
  forgets : w.client.relays = relays → ∀ id r, w.client.relay = some (id, r) →
    w.relay.store.machineByKey r.keyId = none →
    Forgets adminHost id (start relays w.relay.registry w.relay.store)

end World

end TunnelWeaver.Client.Unpair
