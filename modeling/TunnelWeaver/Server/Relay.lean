import TunnelWeaver.Mux.Usage
import TunnelWeaver.Proto.Policy
import TunnelWeaver.Server.Ownership

/-! The relay's side of one client connection (`tunnel/connection.rs`): control streams, which hold
the leases of registered services, and visitor exchanges, whose bodies it pumps both ways. The
handler runs inside the event loop of its connection; the tasks it spawns read the visitor, wait for
the registry or the visitor, and come back through commands. Log lines are not modelled. -/

namespace TunnelWeaver.Mux

/-- The `Display` text. -/
def StreamError.message : StreamError → String
  | notAuthenticated => "connection not authenticated"
  | closed => "connection closed"
  | unknownStream => "unknown stream"
  | sendClosed => "stream send side is closed"
  | wouldBlock => "would block"
  | invalidClass => "streams cannot be placed in the control class"
  | exhausted => "stream ids exhausted"
  | tooLarge len max =>
    "message of " ++ toString len ++ " bytes exceeds max_message " ++ toString max

end TunnelWeaver.Mux

namespace TunnelWeaver.Server

open Mux (Bytes Call CloseReason Compress Event Instant KeyId StreamError StreamId ThirdParty Watch)
open Proto (BodyFrame CertStatus ControlHead ControlReply Field Head HttpHead HttpResponseHead
  Postcard RefusalCode ResetCode eqIgnoreAsciiCase)

/-- The relay stops reading the mux once this many response frames wait for the visitor. -/
def downHighWater : Nat := 64

/-- It resumes reading once no more than this many are left. -/
def downLowWater : Nat := 16

/-- The reader of a request body pauses once this many frames wait for credit. -/
def upHighWater : Nat := 8

/-- The checks of the `http` crate on header fields. -/
class HttpTypes where
  /-- `HeaderName::from_bytes`, which lowercases. -/
  headerName : String → Option String
  /-- Whether `HeaderValue::from_bytes` succeeds. -/
  headerValue : Bytes → Bool

/-- The fields a header map takes. -/
def validFields [HttpTypes] (fields : List Field) : List Field :=
  fields.filterMap fun f =>
    if HttpTypes.headerValue f.2 then (HttpTypes.headerName f.1).map (·, f.2) else none

inductive ProxyError where
  | originUnreachable
  | reset
  | connectionClosed
  | codec (text : String)
  | mux (text : String)
  deriving DecidableEq

/-- The response head a visitor gets; its body is empty or read from the body channel. -/
structure Response where
  status : UInt16
  headers : List Field
  streamed : Bool
  deriving DecidableEq

/-- An item of the visitor's body channel. -/
inductive BodyItem where
  | data (bytes : Bytes)
  | trailers (fields : List Field)
  | error (text : String)
  deriving DecidableEq

/-- `onUpgrade`: the visitor asked for an upgrade, whose raw I/O is at hand. -/
structure ProxyRequest where
  serviceId : ServiceId
  head : HttpHead
  responseTx : Oneshot
  onUpgrade : Bool
  visitorConnect : Bool

/-- A visitor exchange in progress on one stream. -/
structure Exchange where
  req : HttpHead
  responseTx : Option Oneshot
  /-- Whether the sending end of the visitor's body channel is held. -/
  bodyTx : Bool := false
  pendingBody : List BodyFrame := []
  bodyResume : Option Oneshot := none
  bodyDone : Bool := false
  bodyCompress : Compress
  onUpgrade : Bool
  visitorConnect : Bool
  piped : Bool := false
  visitorEof : Bool := false
  pendingDown : List BodyItem := []
  forwarding : Bool := false
  downPaused : Bool := false
  clientDone : Bool := false

/-- Everything there is to send has been queued. Before the `101` of an upgrade there is no end. -/
def Exchange.ended (ex : Exchange) : Bool :=
  ex.bodyDone && !ex.onUpgrade && (!ex.piped || ex.visitorEof)

/-- A control stream is the lease on a registration. -/
inductive Lease where
  | pending
  | registered (hostname : String)
  | released
  deriving DecidableEq

/-- A `register_service` call of the handler, up to the command that takes its result. -/
inductive Registration where
  | running (x : RunningCall)
  | returned (call : Registry.RegisterCall) (result : Except RefusalCode String)

/-- How far a revocation is. -/
inductive Revocation where
  | deleting
  | deleted
  | failed

/-- What the handler did, in order: calls on the connection, and what it handed to other tasks. -/
inductive Note where
  | response (tx : Oneshot) (result : Except ProxyError Response)
  | room (tx : Oneshot)
  /-- A stream was opened for a visitor. -/
  | opened (id : StreamId)
  /-- A frame of the request body was read; it was sent, or it could not be. -/
  | read (id : StreamId) (frame : BodyFrame)
  | sent (id : StreamId) (frame : BodyFrame)
  | unsent (id : StreamId) (frame : BodyFrame)
  /-- The request body ended. -/
  | bodyEnd (id : StreamId)
  /-- `finish` was called, and accepted by the connection or not. -/
  | finish (id : StreamId) (accepted : Bool)
  | reset (id : StreamId)
  /-- An item was handed to the visitor's body channel. -/
  | delivered (id : StreamId) (item : BodyItem)
  /-- The sending end of the visitor's body channel was dropped. -/
  | bodyClosed (id : StreamId)
  /-- The control stream registered a service. -/
  | registered (id : StreamId) (service hostname : String)
  deriving DecidableEq

/-- The handler with its connection, the registry it shares, the tasks it spawned and a record of
what it did. `forwards` are the items on their way into body channels, `readers` and `pipes` the
streams whose request body or upgraded socket is being read, `watches` the hostnames whose
certificate is watched. -/
structure Relay where
  mux : Watch
  registry : Registry
  connId : Option ConnectionId := none
  key : Option KeyId := none
  revoking : Bool := false
  leases : Map StreamId Lease := ∅
  inflight : Map StreamId Exchange := ∅
  registrations : Map StreamId Registration := ∅
  revocations : Map StreamId Revocation := ∅
  watches : List (StreamId × String) := []
  readers : List StreamId := []
  pipes : List StreamId := []
  forwards : Map StreamId BodyItem := ∅
  log : List Note := []

namespace Relay

def note (r : Relay) (n : Note) : Relay := { r with log := r.log ++ [n] }

def setExchange (r : Relay) (id : StreamId) (ex : Exchange) : Relay :=
  { r with inflight := r.inflight.insert id ex }

/-- Forget an exchange; with it goes the sending end of its body channel. -/
def removeExchange (r : Relay) (id : StreamId) : Relay :=
  match r.inflight.lookup id with
  | none => r
  | some ex =>
    let r := { r with inflight := r.inflight.erase id }
    if ex.bodyTx then r.note (.bodyClosed id) else r

section
variable [ThirdParty]

def send (r : Relay) (id : StreamId) (msg : Bytes) (compress : Compress) :
    Relay × Except StreamError Unit :=
  ({ r with mux := r.mux.call (.send id msg compress) }, (r.mux.node.conn.send id msg compress).2)

def recvMsg (r : Relay) (id : StreamId) : Relay × Except StreamError Bytes :=
  ({ r with mux := r.mux.call (.recvMsg id) }, (r.mux.node.conn.recvMsg id).2)

def finish (r : Relay) (id : StreamId) : Relay :=
  { r with mux := r.mux.call (.finish id) }.note
    (.finish id (r.mux.node.conn.finish id).2.isOk)

/-- Every reset of the relay carries the same code. -/
def reset (r : Relay) (id : StreamId) : Relay :=
  { r with mux := r.mux.call (.reset id ResetCode.cancelled.asU32) }.note (.reset id)

def setClass (r : Relay) (id : StreamId) (cls : Mux.Class) : Relay :=
  { r with mux := r.mux.call (.setClass id cls) }

/-! ## Control streams -/

/-- The client gave up a control stream. A lease still pending is kept, for the completion of
`register_service` to see. -/
def releaseLease (r : Relay) (id : StreamId) (now : Int) : Relay :=
  match r.leases.lookup id with
  | some (.registered hostname) =>
    let r := match r.key with
      | some key => { r with registry := r.registry.unregisterService key hostname now }
      | none => r
    { r with leases := r.leases.erase id }.finish id
  | some .pending => { r with leases := r.leases.insert id .released }
  | some .released | none => r

def revokeFailed : String := "the relay could not revoke this machine; try again"

end

def refused (code : RefusalCode) (service : String) : ControlReply :=
  .refused code (match code with
    | .alreadyRegistered => "Service '" ++ service ++ "' is already registered"
    | .invalidName => "Service '" ++ service ++ "' is not a valid service name"
    | .unauthorized => "Unauthorized client identity"
    | .unsupportedVersion min max =>
      "unsupported application protocol version (relay accepts " ++ toString min ++ "..=" ++
        toString max ++ ")"
    | .other => "the relay could not register '" ++ service ++ "'; try again")

section
variable [ThirdParty] [Postcard]

/-- A refusal is the last message of its stream. -/
def reply (r : Relay) (id : StreamId) (reply : ControlReply) : Relay :=
  let r := match Postcard.controlReply.encode reply with
    | .ok bytes => (r.send id bytes Proto.Policy.controlCompress).1
    | .error _ => r
  match reply with
  | .refused .. => r.finish id
  | _ => r

/-- The first message on a client-opened stream must be a control head. -/
def onFirstMessage (r : Relay) (id : StreamId) (msg : Bytes) : Relay :=
  match Postcard.head.decode msg with
  | .ok (.control head) =>
    match r.key, r.connId with
    | some key, some connId =>
      match head.validate with
      | .error code => r.reply id (.refused code "request refused")
      | .ok () =>
        match head with
        | .register _ service => { r with
            leases := r.leases.insert id .pending
            registrations := r.registrations.insert id
              (.running ⟨⟨key, connId, service, connId⟩, .identity⟩) }
        | .revoke _ => { r with
            revoking := true
            revocations := r.revocations.insert id .deleting }
    | _, _ => r.reset id
  | _ => r.reset id

/-- The messages of a stream that carries no exchange; at most `fuel` of them. -/
def readControl (id : StreamId) : Nat → Relay → Relay
  | 0, r => r
  | fuel + 1, r =>
    match r.recvMsg id with
    | (r, .ok msg) =>
      readControl id fuel
        (if (r.leases.lookup id).isSome then r else r.onFirstMessage id msg)
    | (r, .error _) => r

/-- `register_service` has returned. -/
def onRegistered (r : Relay) (id : StreamId) (call : Registry.RegisterCall)
    (result : Except RefusalCode String) (now : Int) : Relay :=
  match result with
  | .ok hostname =>
    match r.leases.lookup id with
    | some .released => { r with
        leases := r.leases.erase id
        registry := r.registry.unregisterService call.keyId hostname now }
    | _ =>
      { r with
        leases := r.leases.insert id (.registered hostname)
        watches := (id, hostname) :: r.watches }.note (.registered id call.service hostname)
        |>.reply id (.registered hostname)
  | .error code => { r with leases := r.leases.erase id }.reply id (refused code call.service)

/-- Push the state of a certificate, while the stream still holds its lease. -/
def pushCertState (r : Relay) (id : StreamId) (status : CertStatus) : Relay :=
  match r.leases.lookup id with
  | some (.registered _) =>
    match Postcard.controlReply.encode (.certState status) with
    | .ok bytes => (r.send id bytes Proto.Policy.controlCompress).1
    | .error _ => r
  | _ => r

/-! ## Request bodies -/

/-- Send queued frames as far as the credit goes. The result is what is left of the queue, or `none`
if a frame could not be sent. -/
def sendQueued (id : StreamId) (compress : Compress) :
    List BodyFrame → Relay → Relay × Option (List BodyFrame)
  | [], r => (r, some [])
  | frame :: rest, r =>
    match Postcard.bodyFrame.encode frame with
    | .error _ => (r.note (.unsent id frame), none)
    | .ok bytes =>
      match r.send id bytes compress with
      | (r, .ok ()) => sendQueued id compress rest (r.note (.sent id frame))
      | (r, .error .wouldBlock) => (r, some (frame :: rest))
      | (r, .error _) => (r.note (.unsent id frame), none)

/-- Let the parked reader of a body continue once there is room. -/
def wakeReader (r : Relay) (ex : Exchange) : Relay × Exchange :=
  match ex.bodyResume with
  | some tx =>
    if ex.pendingBody.length < upHighWater then (r.note (.room tx), { ex with bodyResume := none })
    else (r, ex)
  | none => (r, ex)

def drainRequestBody (r : Relay) (id : StreamId) (ex : Exchange) : Relay × Exchange :=
  match sendQueued id ex.bodyCompress ex.pendingBody r with
  | (r, none) => (r, { ex with pendingBody := [] })
  | (r, some queue) =>
    let x := r.wakeReader { ex with pendingBody := queue }
    (if x.2.pendingBody.isEmpty && x.2.ended then x.1.finish id else x.1, x.2)

/-- Drain the request body of an exchange, if it is still there. -/
def drainBody (r : Relay) (id : StreamId) (f : Exchange → Exchange) : Relay :=
  match r.inflight.lookup id with
  | none => r
  | some ex =>
    let x := r.drainRequestBody id (f ex)
    x.1.setExchange id x.2

/-- Queue a frame read from the visitor. The reader goes on at once or once there is room again. -/
def pushFrame (r : Relay) (id : StreamId) (frame : BodyFrame) (room : Oneshot) : Relay :=
  let r := r.note (.read id frame)
  match r.inflight.lookup id with
  | none => r
  | some ex =>
    let x := r.drainRequestBody id { ex with pendingBody := ex.pendingBody ++ [frame] }
    if x.2.pendingBody.length < upHighWater then (x.1.note (.room room)).setExchange id x.2
    else x.1.setExchange id { x.2 with bodyResume := some room }

/-- Open a stream for a visitor request. -/
def openVisitorStream (r : Relay) (req : ProxyRequest) (now : Int) : Relay :=
  match Postcard.head.encode (.http req.head) with
  | .error text => r.note (.response req.responseTx (.error (.codec text)))
  | .ok bytes =>
    let cls := Proto.Policy.requestClass req.head
    match (r.mux.node.conn.open cls).2 with
    | .error e =>
      { r with mux := r.mux.call (.open cls) }.note
        (.response req.responseTx (.error (.mux e.message)))
    | .ok id =>
      let metering := r.registry.metering.registerStream id req.serviceId
      let r := { r with
        mux := r.mux.call (.open cls)
        registry := { r.registry with metering := metering.recordRequest req.serviceId now } }
      match r.send id bytes Proto.Policy.headCompress with
      | (r, .error e) => (r.reset id).note (.response req.responseTx (.error (.mux e.message)))
      | (r, .ok ()) =>
        { r with readers := id :: r.readers }.note (.opened id) |>.setExchange id {
          req := req.head
          responseTx := some req.responseTx
          bodyCompress := Proto.Policy.requestBodyCompress req.head
          onUpgrade := req.onUpgrade
          visitorConnect := req.visitorConnect }

end

/-! ## Responses -/

/-- Hand the exchange back, or keep a pipe whose visitor may still send. -/
def finishExchange (r : Relay) (id : StreamId) : Relay :=
  match r.inflight.lookup id with
  | none => r
  | some ex =>
    if ex.piped && !ex.visitorEof then
      let r := r.setExchange id { ex with bodyTx := false }
      if ex.bodyTx then r.note (.bodyClosed id) else r
    else r.removeExchange id

/-- Hand at most one queued response frame to the visitor at a time. -/
def pumpDown (r : Relay) (id : StreamId) : Relay :=
  match r.inflight.lookup id with
  | none => r
  | some ex =>
    if ex.forwarding then r
    else match ex.pendingDown with
      | item :: rest =>
        if ex.bodyTx then
          { r with forwards := r.forwards.insert id item }.setExchange id { ex with
            pendingDown := rest
            forwarding := true
            downPaused := if rest.length ≤ downLowWater then false else ex.downPaused }
        else r.setExchange id { ex with pendingDown := rest }
      | [] => if ex.clientDone then r.finishExchange id else r

section
variable [HttpTypes]

def response (head : HttpResponseHead) : Response where
  status := if 100 ≤ head.status ∧ head.status < 1000 then head.status else 500
  headers := validFields head.headers
  streamed := true

/-- The answer to an upgrade. An extended CONNECT is answered without the upgrade headers; otherwise
the relay adds its own. -/
def upgradeResponse (ex : Exchange) (head : HttpResponseHead) : Response :=
  if ex.visitorConnect then
    { status := 200
      headers := validFields (head.headers.filter fun f =>
        !(eqIgnoreAsciiCase f.1 "connection" || eqIgnoreAsciiCase f.1 "upgrade" ||
          eqIgnoreAsciiCase f.1 "sec-websocket-accept"))
      streamed := false }
  else
    let protocol := ((ex.req.header "upgrade").bind Proto.Policy.fromUtf8).getD "websocket"
    { status := 101
      headers := validFields head.headers ++
        [("connection", "upgrade".toUTF8.toList), ("upgrade", protocol.toUTF8.toList)]
      streamed := false }

/-- A 1xx head, unless it is the answer to an upgrade. -/
def isInterim (upgrade : Bool) (head : HttpResponseHead) : Bool :=
  decide (100 ≤ head.status ∧ head.status < 200) && !(head.status == 101 && upgrade)

variable [Postcard]

/-- The item a message of the response body becomes. -/
def bodyItem (msg : Bytes) : BodyItem :=
  match Postcard.bodyFrame.decode msg with
  | .ok (.chunk data) => .data data
  | .ok (.trailers fields) => .trailers (validFields fields)
  | .error text => .error text

variable [ThirdParty]

/-- A final response head may move its stream to another class. -/
def classify (r : Relay) (id : StreamId) (req : HttpHead) (head : HttpResponseHead) : Relay :=
  match Proto.Policy.responseClass req head with
  | some cls => r.setClass id cls
  | none => r

/-- The upgraded socket of the visitor is read from now on. -/
def startPipe (r : Relay) (id : StreamId) : Relay := { r with pipes := id :: r.pipes }

/-- A head, until the first one that is not interim. -/
def onHead (r : Relay) (id : StreamId) (ex : Exchange) (tx : Oneshot) (msg : Bytes) :
    Relay × Exchange :=
  match Postcard.responseHead.decode msg with
  | .error text =>
    ((r.note (.response tx (.error (.codec text)))).reset id, { ex with responseTx := none })
  | .ok head =>
    if isInterim ex.onUpgrade head then (r, ex)
    else
      let r := r.classify id ex.req head
      if head.status == 101 && ex.onUpgrade then
        (((r.note (.response tx (.ok (upgradeResponse ex head)))).setClass id .realtime).startPipe id,
          { ex with responseTx := none, bodyTx := true, piped := true, onUpgrade := false })
      else (r.note (.response tx (.ok (response head))),
        { ex with responseTx := none, bodyTx := true })

def onVisitorMessage (r : Relay) (id : StreamId) (ex : Exchange) (msg : Bytes) :
    Relay × Exchange :=
  match ex.responseTx with
  | some tx => r.onHead id ex tx msg
  | none =>
    if ex.bodyTx then
      let pendingDown := ex.pendingDown ++ [bodyItem msg]
      (r, { ex with
        pendingDown
        downPaused := if downHighWater ≤ pendingDown.length then true else ex.downPaused })
    else (r, ex)

/-- The messages of an exchange, until the queue towards the visitor is full; at most `fuel` of
them. -/
def readExchange (id : StreamId) : Nat → Relay → Relay
  | 0, r => r
  | fuel + 1, r =>
    match r.inflight.lookup id with
    | none => r
    | some ex =>
      if ex.downPaused then r
      else match r.recvMsg id with
        | (r, .ok msg) =>
          let x := r.onVisitorMessage id ex msg
          readExchange id fuel ((x.1.setExchange id x.2).pumpDown id)
        | (r, .error _) => r

/-- Read every available message on a visitor stream. -/
def drainInbox (r : Relay) (id : StreamId) : Relay :=
  let r := r.pumpDown id
  readExchange id (r.mux.inbox id).length r

/-! ## Events -/

def forgetStream (r : Relay) (id : StreamId) : Relay :=
  { r with registry := { r.registry with metering := r.registry.metering.unregisterStream id } }

/-- The response is complete, but frames may still wait for the visitor. -/
def clientFinished (r : Relay) (id : StreamId) : Relay :=
  match r.inflight.lookup id with
  | none => r
  | some ex =>
    let r := r.setExchange id { ex with clientDone := true }
    if !ex.forwarding && ex.pendingDown.isEmpty then r.finishExchange id else r

def streamReset (r : Relay) (id : StreamId) (code : UInt32) : Relay :=
  match r.inflight.lookup id with
  | none => r
  | some ex =>
    let r := r.removeExchange id
    match ex.responseTx with
    | none => r
    | some tx => r.note (.response tx (.error
        (if ResetCode.fromU32 code = some .originUnreachable then .originUnreachable else .reset)))

/-- `closeTx` is the channel made for an authenticated connection. -/
def onEvent (r : Relay) (closeTx : Oneshot) (now : Int) : Event → Relay
  | .authenticated keyId _ =>
    let x := r.registry.registerConnection keyId closeTx now
    { r with key := some keyId, connId := some x.2.1, registry := x.1 }
  | .streamOpened .. => r
  | .readable id =>
    if (r.inflight.lookup id).isSome then r.drainInbox id
    else readControl id (r.mux.inbox id).length r
  | .writable id _ => r.drainBody id fun ex => ex
  | .finished id => ((r.forgetStream id).releaseLease id now).clientFinished id
  | .reset id code => ((r.forgetStream id).releaseLease id now).streamReset id code
  | .closed _ =>
    match r.key, r.connId with
    | some key, some connId =>
      { r with registry := r.registry.unregisterConnection key connId now }
    | _, _ => r
  | .rejected .. => r

end

end Relay

/-! ## Runs -/

/-- What happens to a relay: its connection faces the network and the clock, an event reaches the
handler, or one of its tasks gets further and comes back with a command. -/
inductive RelayAction where
  | recv (now : Instant) (bytes : Bytes)
  | timeout (now : Instant) (stillValid : Nat → KeyId → Bool) (fuel : Nat)
  | transmit
  | close (reason : CloseReason)
  | event (closeTx : Oneshot) (now : Int)
  | visitor (req : ProxyRequest) (now : Int)
  /-- `register_service` gets an answer, and its result comes back. -/
  | resume (id : StreamId) (reply : Reply) (now : Int)
  | registered (id : StreamId) (now : Int)
  /-- The store deletes the machine or fails, and the reply goes out. -/
  | revoke (id : StreamId) (deleted : Bool) (now : Int)
  | revoked (id : StreamId)
  | certState (id : StreamId) (status : CertStatus)
  /-- The body of a request yields a frame, fails or ends. -/
  | bodyFrame (id : StreamId) (frame : BodyFrame) (room : Oneshot)
  | bodyFailed (id : StreamId)
  | bodyEnd (id : StreamId)
  /-- An upgraded socket yields bytes, could not be had, or is at its end. -/
  | pipeFrame (id : StreamId) (data : Bytes) (room : Oneshot)
  | pipeFailed (id : StreamId)
  | pipeEof (id : StreamId)
  /-- The visitor's body channel took an item. -/
  | forwarded (id : StreamId)
  /-- Other tasks changed the registry. -/
  | elsewhere (registry : Registry)

namespace Relay
variable [ThirdParty] [Postcard] [HttpTypes]

def new (conn : Mux.Connection) (registry : Registry) : Relay :=
  { mux := .new conn.setBytesSink, registry }

/-- The tasks that read a request body or an upgraded socket. -/
def stopReader (r : Relay) (id : StreamId) : Relay := { r with readers := r.readers.erase id }

def stopPipe (r : Relay) (id : StreamId) : Relay := { r with pipes := r.pipes.erase id }

/-- A registration gets an answer. -/
def resume (r : Relay) (id : StreamId) (reply : Reply) (now : Int) : Option Relay :=
  match r.registrations.lookup id with
  | some (.running x) =>
    (x.resume r.registry now reply).map fun p => { r with
      registry := p.1
      registrations := r.registrations.insert id (match p.2 with
        | .waiting x => .running x
        | .returned result => .returned x.call result) }
  | _ => none

def revoke (r : Relay) (id : StreamId) (deleted : Bool) (now : Int) : Option Relay :=
  match r.revocations.lookup id with
  | some .deleting =>
    if deleted then
      let r := { r with revocations := r.revocations.insert id .deleted }
      match r.key, r.connId with
      | some key, some connId =>
        some { r with registry := r.registry.unregisterConnection key connId now }
      | _, _ => some r
    else some { r with revoking := false, revocations := r.revocations.insert id .failed }
  | _ => none

def step (r : Relay) : RelayAction → Option Relay
  | .recv now bytes => (r.mux.face (.recv now bytes)).map fun mux => { r with mux }
  | .timeout now stillValid fuel =>
    (r.mux.face (.handleTimeout now stillValid fuel)).map fun mux => { r with mux }
  | .transmit => (r.mux.face .pollTransmit).map fun mux => { r with mux }
  | .close reason => some { r with mux := r.mux.call (.close reason) }
  | .event closeTx now =>
    r.mux.node.conn.pollEvent.2.map fun ev =>
      { r with mux := r.mux.call .pollEvent }.onEvent closeTx now ev
  | .visitor req now => some (r.openVisitorStream req now)
  | .resume id reply now => r.resume id reply now
  | .registered id now =>
    match r.registrations.lookup id with
    | some (.returned call result) =>
      some ({ r with registrations := r.registrations.erase id }.onRegistered id call result now)
    | _ => none
  | .revoke id deleted now => r.revoke id deleted now
  | .revoked id =>
    match r.revocations.lookup id with
    | some .deleted => some ({ r with revocations := r.revocations.erase id }.reply id .revoked)
    | some .failed =>
      some ({ r with revocations := r.revocations.erase id }.reply id
        (.refused .other revokeFailed))
    | _ => none
  | .certState id status =>
    if r.watches.any (·.1 == id) then some (r.pushCertState id status) else none
  | .bodyFrame id frame room =>
    if id ∈ r.readers then
      -- The reader skips empty chunks, and stops when the exchange is gone.
      if frame = .chunk [] then some r
      else if (r.inflight.lookup id).isSome then some (r.pushFrame id frame room)
      else some ((r.stopReader id).pushFrame id frame room)
    else none
  | .bodyFailed id =>
    if id ∈ r.readers then some (((r.stopReader id).removeExchange id).reset id) else none
  | .bodyEnd id =>
    if id ∈ r.readers then
      some (((r.stopReader id).note (.bodyEnd id)).drainBody id fun ex =>
        { ex with bodyDone := true })
    else none
  | .pipeFrame id data room =>
    if id ∈ r.pipes ∧ data ≠ [] then
      if (r.inflight.lookup id).isSome then some (r.pushFrame id (.chunk data) room)
      else some ((r.stopPipe id).pushFrame id (.chunk data) room)
    else none
  | .pipeFailed id =>
    if id ∈ r.pipes then some (((r.stopPipe id).removeExchange id).reset id) else none
  | .pipeEof id =>
    if id ∈ r.pipes then
      let r := ((r.stopPipe id).note (.bodyEnd id)).drainBody id fun ex =>
        { ex with visitorEof := true, bodyDone := true }
      some (r.pumpDown id)
    else none
  | .forwarded id =>
    match r.forwards.lookup id with
    | none => none
    | some item =>
      let r := { r with forwards := r.forwards.erase id }.note (.delivered id item)
      let r := match r.inflight.lookup id with
        | some ex => r.setExchange id { ex with forwarding := false }
        | none => r
      some (r.drainInbox id)
  | .elsewhere registry => some { r with registry }

def run (r : Relay) (actions : List RelayAction) : Option Relay := Automaton.run step r actions

end Relay

end TunnelWeaver.Server
