import TunnelWeaver.Mux.Sched

/-! The `Connection` state machine (`connection.rs`). Every method takes the state and returns the
new one next to its result; time is the `now` passed in. -/

namespace TunnelWeaver.Mux

def decompressCapFactor : Nat := 8

def rstCodeConnectionClosed : UInt32 := 0

/-- One multiplexed connection. `reports` are the calls made to the byte sink so far. -/
structure Connection where
  cfg : Config
  hs : HandshakeState
  nonceS : Option (ByteArr 32)
  keyId : Option KeyId
  version : Option UInt16
  params : Option Params
  streams : Map StreamId Stream
  bytesSink : Bool
  reports : List (StreamId × Nat × Nat)
  nextStreamId : Nat
  lastPeerStreamId : Nat
  sched : SchedTree
  priorityOut : List Frame
  closed : Option CloseReason
  timers : Timers
  events : List Event
  pingCounter : UInt64

namespace Connection

/-- A connection before anything was sent or received on it. -/
def fresh (cfg : Config) (now : Instant) (hs : HandshakeState) (maxFrame nextStreamId : Nat)
    (nonceS : Option (ByteArr 32)) (reverify : Option Duration) (priorityOut : List Frame) :
    Connection where
  cfg := cfg
  hs := hs
  nonceS := nonceS
  keyId := none
  version := none
  params := none
  streams := ∅
  bytesSink := false
  reports := []
  nextStreamId := nextStreamId
  lastPeerStreamId := 0
  sched := .new cfg.weights maxFrame
  priorityOut := priorityOut
  closed := none
  timers := .new now handshakeTimeout cfg.pingInterval cfg.idleTimeout reverify
  events := []
  pingCounter := 0

/-- Create a connection; the server queues its CHALLENGE immediately. -/
def new [ThirdParty] (cfg : Config) (now : Instant) : Connection :=
  let cfg := cfg.normalize
  match cfg.role with
  | .client _ => fresh cfg now .awaitChallenge 0 1 none none []
  | .server _ params reverify =>
    fresh cfg now .challengeSent params.maxFrame.toNat 2 (some cfg.rng) reverify
      [⟨0, .challenge, ThirdParty.challenge.encode ⟨cfg.rng⟩⟩]

def isClosed (c : Connection) : Bool := c.closed.isSome

def setBytesSink (c : Connection) : Connection := { c with bytesSink := true }

/-- `self.params.expect("authenticated")`: the parameters are set whenever the handshake is done,
so the default is never read. -/
def paramsInForce (c : Connection) : Params := c.params.getD .default

def nextTimeout (c : Connection) : Option Instant :=
  if c.closed.isSome then none else c.timers.nextTimeout

/-! ## Shared steps -/

def pushEvent (c : Connection) (e : Event) : Connection := { c with events := c.events ++ [e] }

def pushControl (c : Connection) (f : Frame) : Connection :=
  { c with sched := c.sched.pushControl f }

def pushPriority (c : Connection) (f : Frame) : Connection :=
  { c with priorityOut := c.priorityOut ++ [f] }

def setStream (c : Connection) (id : StreamId) (s : Stream) : Connection :=
  { c with streams := c.streams.insert id s }

/-- Account for a frame just sent. -/
def served (c : Connection) (pick : Pick) (cls : Class) (len : Nat) (nextLen : Option Nat) :
    Connection :=
  { c with sched := c.sched.served pick cls len nextLen }

def activateStream (c : Connection) (id : StreamId) (cls : Class) (len : Nat) : Connection :=
  { c with sched := c.sched.activateStream id cls len }

def reclass (c : Connection) (id : StreamId) (src dst : Class) (headLen : Option Nat) :
    Connection :=
  { c with sched := c.sched.reclass id src dst headLen }

/-- A call to the byte sink, when one is installed. -/
def report (c : Connection) (id : StreamId) (bytesIn bytesOut : Nat) : Connection :=
  if c.bytesSink then { c with reports := c.reports ++ [(id, bytesIn, bytesOut)] } else c

def pollEvent (c : Connection) : Connection × Option Event :=
  match c.events with
  | [] => (c, none)
  | e :: rest => ({ c with events := rest }, some e)

def dropStream (c : Connection) (id : StreamId) : Connection :=
  match c.streams.lookup id with
  | none => c
  | some s =>
    { c with streams := c.streams.erase id, sched := c.sched.removeStream id s.cls }

/-- Drop a stream entry once nothing remains to send or deliver. -/
def maybeForget (c : Connection) (id : StreamId) : Connection :=
  match c.streams.lookup id with
  | none => c
  | some s => if s.isFinished then c.dropStream id else c

def queueFin (c : Connection) (id : StreamId) : Connection := c.pushControl ⟨id, .fin, []⟩

def queueWindowUpdate [ThirdParty] (c : Connection) (id : StreamId) (credit : Nat) : Connection :=
  c.pushControl ⟨id, .windowUpdate, ThirdParty.windowUpdate.encode ⟨UInt32.ofNat credit⟩⟩

/-- The peer's FIN has arrived and every message has been consumed. -/
def finishedStream (c : Connection) (id : StreamId) : Connection :=
  (c.pushEvent (.finished id)).maybeForget id

/-! ## Close -/

/-- Reset one stream locally because the connection closes. -/
def closeStream (c : Connection) (id : StreamId) : Connection :=
  (c.dropStream id).pushEvent (.reset id rstCodeConnectionClosed)

def sortedIds (c : Connection) : List StreamId := c.streams.keys.insertionSort (· ≤ ·)

/-- Nothing queued goes out any more, GOAWAY takes its place. -/
def dropQueues [ThirdParty] (c : Connection) (reason : CloseReason) (sendGoaway : Bool) :
    Connection :=
  { c with
    sched := c.sched.clearControl
    priorityOut :=
      if sendGoaway then [⟨0, .goaway, ThirdParty.goaway.encode reason⟩] else c.priorityOut }

/-- `sendGoaway` is false when the peer initiated the close, or left after REJECT. -/
def closeInternal [ThirdParty] (c : Connection) (reason : CloseReason) (sendGoaway : Bool) :
    Connection :=
  if c.closed.isSome then c
  else
    let c := c.dropQueues reason sendGoaway
    let c := c.sortedIds.foldl closeStream c
    { c with timers := c.timers.clear, closed := some reason }.pushEvent (.closed reason)

/-- Tear the connection down. -/
def close [ThirdParty] (c : Connection) (reason : CloseReason) : Connection :=
  c.closeInternal reason true

/-! ## Time -/

/-- Queue a keepalive PING. -/
def sendPing [ThirdParty] (c : Connection) : Connection :=
  let opaqueValue := c.pingCounter + 1
  { c with
    pingCounter := opaqueValue
    timers := { c.timers with pingOutstanding := some opaqueValue } }.pushControl
    ⟨0, .ping, ThirdParty.ping.encode ⟨opaqueValue⟩⟩

/-- Ask the verifier whether the key is still held; a client has none to ask. -/
def keyHeld (c : Connection) (stillValid : KeyId → Bool) : Bool :=
  match c.cfg.role, c.keyId with
  | .server .., some k => stillValid k
  | _, _ => true

def rearmReverify (c : Connection) (now : Instant) : Connection :=
  match c.timers.reverifyInterval with
  | some interval => { c with timers := { c.timers with reverifyDue := some (now + interval) } }
  | none => c

def reverify [ThirdParty] (c : Connection) (now : Instant) (stillValid : KeyId → Bool) :
    Connection :=
  let valid := c.keyHeld stillValid
  let c := c.rearmReverify now
  if valid then c else c.closeInternal (.new .keyRevoked) true

/-- Fire the deadlines that have passed at `now`, at most `fuel` of them; `none` when that did not
settle (a zero reverify interval never does). `stillValid n` answers the poll made with `n`
rounds left. -/
def timeoutLoop [ThirdParty] (now : Instant) (stillValid : Nat → KeyId → Bool) :
    Nat → Connection → Option Connection
  | 0, _ => none
  | fuel + 1, c =>
    if c.closed.isSome then some c
    else match c.timers.expired now with
      | none => some c
      | some .handshake | some .idle =>
        timeoutLoop now stillValid fuel (c.closeInternal (.new .timeout) true)
      | some .reverify => timeoutLoop now stillValid fuel (c.reverify now (stillValid fuel))
      | some .ping => timeoutLoop now stillValid fuel c.sendPing

def observe (c : Connection) (now : Instant) : Connection :=
  { c with timers := c.timers.observe now }

/-- Fire every deadline that has passed. -/
def handleTimeout [ThirdParty] (c : Connection) (now : Instant) (stillValid : Nat → KeyId → Bool)
    (fuel : Nat) : Option Connection :=
  let c := c.observe now
  timeoutLoop c.timers.lastNow stillValid fuel c

/-! ## Transmit -/

def wantsTransmit (c : Connection) : Bool := !c.priorityOut.isEmpty || c.sched.hasBacklog

/-- Our OPEN left: DATA for this stream may now be scheduled. -/
def onOpenSent (c : Connection) (id : StreamId) : Connection :=
  match c.streams.lookup id with
  | none => c
  | some s =>
    let c := c.setStream id { s with openSent := true }
    match s.headLen with
    | some len => c.activateStream id s.cls len
    | none => c

/-- Emit the control frame `frame`, just popped. -/
def emitControl (c : Connection) (frame : Frame) : Connection :=
  let c := if frame.frameType = .open then c.onOpenSent frame.streamId else c
  c.served .control .control (asU32 frame.wireLen) none

/-- Emit the DATA payload `payload`, just popped from stream `s`. -/
def emitData (c : Connection) (id : StreamId) (s : Stream) (payload : Bytes)
    (rest : List Bytes) : Connection :=
  let s' := s.popOutbox payload rest
  let nextLen := s'.headLen
  let c := (c.setStream id s').served (.stream id) s.cls
    (asU32 (Frame.headerLen + payload.length)) nextLen
  let c := if nextLen.isNone && !s'.localOpen then c.queueFin id else c
  c.maybeForget id

/-- One frame to put on the wire, if there is one. -/
def pollTransmit (c : Connection) : Connection × Option Bytes :=
  match c.priorityOut with
  | frame :: rest => ({ c with priorityOut := rest }, some frame.encode)
  | [] =>
    let pick := c.sched.pick
    let c := { c with sched := pick.1 }
    match pick.2 with
    | none => (c, none)
    | some .control =>
      match c.sched.control with
      | [] => (c, none)
      | frame :: rest =>
        ({ c with sched := { c.sched with control := rest } }.emitControl frame,
          some frame.encode)
    | some (.stream id) =>
      match c.streams.lookup id with
      | none => (c, none)
      | some s =>
        match s.outbox with
        | [] => (c, none)
        | payload :: rest =>
          (c.emitData id s payload rest, some (Frame.mk id .data payload).encode)

/-! ## Receive -/

/-- The result of processing a frame. -/
abbrev Outcome := Connection × Except ProtocolError Unit

def afterAuth (c : Connection) (k : Connection → Outcome) : Outcome :=
  if c.hs = .done then k c else (c, .error (.stateViolation "frame before WELCOME"))

/-- Run `k` on a decoded payload. -/
def decoding {α : Type} (c : Connection) (codec : Codec α) (f : Frame) (k : α → Outcome) :
    Outcome :=
  match codec.decode f.payload with
  | none => (c, .error (.decode f.frameType))
  | some a => k a

def finishHandshake (c : Connection) (now : Instant) (version : UInt16) (params : Params)
    (keyId : KeyId) : Connection :=
  { c with
    hs := .done
    version := some version
    params := some params
    timers := c.timers.onAuthenticated now }.pushEvent (.authenticated keyId version)

def onChallenge [ThirdParty] (c : Connection) (f : Frame) : Outcome :=
  if c.hs ≠ .awaitChallenge then (c, .error (.stateViolation "unexpected CHALLENGE"))
  else match c.cfg.role with
    | .server .. => (c, .error (.stateViolation "unexpected CHALLENGE"))
    | .client signer =>
      c.decoding ThirdParty.challenge f fun ch =>
        let msg := transcript ch.nonceS c.cfg.rng c.cfg.serverName c.cfg.channelBinding
        match signer.sign msg with
        | .error e =>
          (c.closeInternal (.withMessage .rejected ("signing failed: " ++ e)) true, .ok ())
        | .ok sig =>
          ({ c with
              keyId := some signer.keyId
              hs := .helloSent }.pushPriority
            ⟨0, .hello, ThirdParty.hello.encode ⟨maxVersion, signer.keyId, c.cfg.rng, sig⟩⟩,
            .ok ())

def rejectHandshake [ThirdParty] (c : Connection) (code : RejectCode) (message : String) :
    Connection :=
  (c.pushPriority ⟨0, .reject, ThirdParty.reject.encode ⟨code, message⟩⟩).closeInternal
    (.withMessage .rejected message) false

def onHello [ThirdParty] (c : Connection) (now : Instant) (f : Frame) : Outcome :=
  if c.hs ≠ .challengeSent then (c, .error (.stateViolation "unexpected HELLO"))
  else match c.cfg.role with
    | .client _ => (c, .error (.stateViolation "unexpected HELLO"))
    | .server verifier params _ =>
      c.decoding ThirdParty.hello f fun hello =>
        match negotiate hello.version with
        | .error code => (c.rejectHandshake code "unsupported protocol version", .ok ())
        | .ok version =>
          match verifier.publicKey hello.keyId with
          | none => (c.rejectHandshake .unknownKey "unknown key", .ok ())
          | some pk =>
            let nonceS := c.nonceS.getD c.cfg.rng
            let msg := transcript nonceS hello.nonceC c.cfg.serverName c.cfg.channelBinding
            if !verify hello.keyId pk msg hello.sig then
              (c.rejectHandshake .badSignature "signature verification failed", .ok ())
            else
              ({ c.pushPriority ⟨0, .welcome, ThirdParty.welcome.encode ⟨version, params⟩⟩ with
                  keyId := some hello.keyId }.finishHandshake now version params hello.keyId,
                .ok ())

/-- The WELCOME checks of the client. -/
def checkWelcome (w : Welcome) : Except ProtocolError Unit :=
  if !acceptVersion maxVersion w.version then .error (.badParams "version")
  else if ¬(minWindow ≤ w.params.initialWindow ∧ w.params.initialWindow ≤ maxWindow) then
    .error (.badParams "initial_window")
  else if w.params.maxFrame < 2 then .error (.badParams "max_frame")
  else if w.params.maxMessage < minMessage then .error (.badParams "max_message")
  else .ok ()

def onWelcome [ThirdParty] (c : Connection) (now : Instant) (f : Frame) : Outcome :=
  if c.cfg.role.isServer ∨ c.hs ≠ .helloSent then
    (c, .error (.stateViolation "unexpected WELCOME"))
  else c.decoding ThirdParty.welcome f fun w =>
    match checkWelcome w with
    | .error e => (c, .error e)
    | .ok () =>
      match c.keyId with
      | none => (c, .error (.stateViolation "client stored its key id at HELLO"))
      | some keyId =>
        ({ c with sched := .new c.cfg.weights w.params.maxFrame.toNat }.finishHandshake now
          w.version w.params keyId, .ok ())

def onReject [ThirdParty] (c : Connection) (f : Frame) : Outcome :=
  if c.cfg.role.isServer ∨ c.hs ≠ .helloSent then
    (c, .error (.stateViolation "unexpected REJECT"))
  else c.decoding ThirdParty.reject f fun r =>
    ((c.pushEvent (.rejected r.code r.message)).closeInternal
      (.withMessage .rejected r.message) false, .ok ())

def onPing [ThirdParty] (c : Connection) (f : Frame) : Outcome :=
  c.decoding ThirdParty.ping f fun p =>
    (c.pushControl ⟨0, .pong, ThirdParty.ping.encode p⟩, .ok ())

def onPong [ThirdParty] (c : Connection) (f : Frame) : Outcome :=
  c.decoding ThirdParty.ping f fun p =>
    (if c.timers.pingOutstanding = some p.nonce then
      { c with timers := { c.timers with pingOutstanding := none } } else c, .ok ())

def onGoaway [ThirdParty] (c : Connection) (f : Frame) : Outcome :=
  c.decoding ThirdParty.goaway f fun g => (c.closeInternal g false, .ok ())

def peerOpensOdd (c : Connection) : Bool := c.cfg.role.isServer

/-- The id is one that legitimately existed. -/
def known (c : Connection) (id : StreamId) : Bool :=
  if (id % 2 == 1) == c.peerOpensOdd then decide (id ≤ c.lastPeerStreamId)
  else decide (id < c.nextStreamId)

/-- Frames for a stream we no longer track are tolerated when the id is known. -/
def streamMut (c : Connection) (id : StreamId) : Except ProtocolError (Option Stream) :=
  match c.streams.lookup id with
  | some s => .ok (some s)
  | none => if c.known id then .ok none else .error (.badStreamId id)

/-- Run `k` on the stream, if it is still tracked. -/
def withStream (c : Connection) (id : StreamId) (k : Stream → Outcome) : Outcome :=
  match c.streamMut id with
  | .error e => (c, .error e)
  | .ok none => (c, .ok ())
  | .ok (some s) => k s

def onStreamOpen [ThirdParty] (c : Connection) (f : Frame) : Outcome :=
  let id := f.streamId
  if (id % 2 == 1) != c.peerOpensOdd ∨ id ≤ c.lastPeerStreamId then
    (c, .error (.badStreamId id))
  else c.decoding ThirdParty.cls f fun cls =>
    if cls = .control then (c, .error (.badPolicy id))
    else
      let s := Stream.new cls c.paramsInForce.initialWindow.toNat true
      ({ c.setStream id s with
          sched := c.sched.addStream id cls
          lastPeerStreamId := id }.pushEvent (.streamOpened id cls), .ok ())

/-- The flag byte and body of a DATA payload: the decompressed bytes, and whether more fragments
of the message follow. -/
def parseData [ThirdParty] (params : Params) (id : StreamId) :
    Bytes → Except ProtocolError (Bytes × Bool)
  | [] => .error (.decode .data)
  | flags :: body =>
    if flags &&& ~~~dataFlagsKnown ≠ 0 then .error (.decode .data)
    else
      let more := flags &&& dataFlagMore != 0
      if flags &&& dataFlagCompressed != 0 then
        match ThirdParty.zstdDecompress body (params.maxFrame.toNat * decompressCapFactor) with
        | some data => .ok (data, more)
        | none => .error (.decompress id)
      else .ok (body, more)

/-- The stream after a DATA frame was accepted: a complete message moves to the inbox. -/
def deliverData (s : Stream) (recv : RecvWindow) (wireLen : Nat) (data : Bytes) (more : Bool) :
    Stream :=
  let partialMsg := s.partialMsg ++ data
  let partialWire := satAdd32 s.partialWire wireLen
  if more then { s with recv, partialMsg, partialWire }
  else { s with
    recv
    partialMsg := []
    partialWire := 0
    inbox := s.inbox ++ [(partialMsg, partialWire)] }

def onData [ThirdParty] (c : Connection) (f : Frame) : Outcome :=
  let id := f.streamId
  let params := c.paramsInForce
  let wireLen := asU32 f.payload.length
  match parseData params id f.payload with
  | .error e => (c, .error e)
  | .ok (data, more) =>
    c.withStream id fun s =>
      if !s.remoteOpen then (c, .error (.stateViolation "DATA after FIN"))
      else match s.recv.onData wireLen with
        | none => (c, .error (.flowControl id))
        | some recv =>
          let c := (c.setStream id { s with recv }).report id wireLen 0
          if params.maxMessage.toNat < s.partialMsg.length + data.length then
            (c, .error (.messageTooLarge id))
          else
            let c := c.setStream id (deliverData s recv wireLen data more)
            (if !more && s.inbox.isEmpty then c.pushEvent (.readable id) else c, .ok ())

def onFin (c : Connection) (f : Frame) : Outcome :=
  let id := f.streamId
  c.withStream id fun s =>
    if !s.remoteOpen then (c, .error (.stateViolation "duplicate FIN"))
    else
      let c := c.setStream id { s with remoteOpen := false }
      if !s.partialMsg.isEmpty then (c, .error (.stateViolation "FIN inside a message"))
      else (if s.inbox.isEmpty then c.finishedStream id else c, .ok ())

def onRst [ThirdParty] (c : Connection) (f : Frame) : Outcome :=
  let id := f.streamId
  c.decoding ThirdParty.rst f fun rst =>
    c.withStream id fun _ => ((c.dropStream id).pushEvent (.reset id rst.code), .ok ())

def onWindowUpdate [ThirdParty] (c : Connection) (f : Frame) : Outcome :=
  let id := f.streamId
  c.decoding ThirdParty.windowUpdate f fun wu =>
    c.withStream id fun s =>
      let s := { s with send := s.send.grant wu.credit.toNat }
      if s.wantsWritable ∧ 0 < s.freeCredit then
        ((c.setStream id { s with wantsWritable := false }).pushEvent
          (.writable id s.freeCredit), .ok ())
      else (c.setStream id s, .ok ())

def dispatch [ThirdParty] (c : Connection) (now : Instant) (f : Frame) : Outcome :=
  if f.streamId = 0 then
    match f.frameType with
    | .challenge => c.onChallenge f
    | .hello => c.onHello now f
    | .welcome => c.onWelcome now f
    | .reject => c.onReject f
    | .goaway => c.onGoaway f
    | .ping => c.afterAuth (·.onPing f)
    | .pong => c.afterAuth (·.onPong f)
    | .open | .data | .fin | .rst | .windowUpdate => (c, .error (.badStreamId 0))
  else
    c.afterAuth fun c =>
      match f.frameType with
      | .open => c.onStreamOpen f
      | .data => c.onData f
      | .fin => c.onFin f
      | .rst => c.onRst f
      | .windowUpdate => c.onWindowUpdate f
      | .challenge | .hello | .welcome | .reject | .ping | .pong | .goaway =>
        (c, .error (.stateViolation "connection frame on a non-zero stream"))

/-- Close with `GOAWAY` because the peer violated the protocol. -/
def fail [ThirdParty] (c : Connection) (e : ProtocolError) : Outcome :=
  (c.closeInternal (.withMessage .protocolError e.text) true, .error e)

/-- Process a parsed frame. -/
def recvFrame [ThirdParty] (c : Connection) (now : Instant) (f : Frame) : Outcome :=
  let c := { c with timers := c.timers.onRecv now }
  match c.dispatch now f with
  | (c, .ok ()) => (c, .ok ())
  | (c, .error e) => c.fail e

/-- Feed one frame from the peer. Frames arriving after the connection closed are ignored. -/
def recv [ThirdParty] (c : Connection) (now : Instant) (bytes : Bytes) : Outcome :=
  let c := c.observe now
  if c.closed.isSome then (c, .ok ())
  else match Frame.parse bytes with
    | .error e => c.fail e
    | .ok f => c.recvFrame c.timers.lastNow f

/-! ## Stream API -/

def ready (c : Connection) : Except StreamError Unit :=
  if c.closed.isSome then .error .closed
  else if c.hs ≠ .done then .error .notAuthenticated
  else .ok ()

/-- Open a stream toward the peer. -/
def «open» [ThirdParty] (c : Connection) (cls : Class) :
    Connection × Except StreamError StreamId :=
  match c.ready with
  | .error e => (c, .error e)
  | .ok () =>
    if cls = .control then (c, .error .invalidClass)
    else
      let id := c.nextStreamId
      if u32Max < id + 2 then (c, .error .exhausted)
      else
        let s := Stream.new cls c.paramsInForce.initialWindow.toNat false
        ({ c.setStream id s with
            nextStreamId := id + 2
            sched := c.sched.addStream id cls }.pushControl
          ⟨id, .open, ThirdParty.cls.encode cls⟩, .ok id)

/-- One DATA payload: the flag byte, then the fragment, compressed when that shrinks it. -/
def fragmentPayload [ThirdParty] (stance : Compress) (cls : Class) (more : Bool)
    (chunk : Bytes) : Bytes :=
  let flag := if more then dataFlagMore else 0
  let packed := if shouldCompress stance cls chunk then ThirdParty.zstdCompress chunk else none
  match packed.filter (·.length < chunk.length) with
  | some c => (flag ||| dataFlagCompressed) :: c
  | none => flag :: chunk

/-- The fragments of a message; an empty message is one empty fragment. -/
def fragments (maxFrame : Nat) (msg : Bytes) : List Bytes :=
  if msg.isEmpty then [[]] else chunks (maxFrame - 1) msg

/-- The DATA payloads of a message, all but the last flagged MORE. -/
def payloads [ThirdParty] (stance : Compress) (cls : Class) (frags : List Bytes) : List Bytes :=
  frags.mapIdx fun i chunk => fragmentPayload stance cls (decide (i < frags.length - 1)) chunk

/-- The credit a message may need: its length and one flag byte per fragment. -/
def worstCase (maxFrame : Nat) (msg : Bytes) : Nat :=
  msg.length + max (divCeil msg.length (maxFrame - 1)) 1

/-- The class of a stream that has sent `writtenTotal` bytes. -/
def demote (bulkThreshold : Option Nat) (cls : Class) (writtenTotal : Nat) : Class :=
  match cls, bulkThreshold with
  | .interactive, some t => if t < writtenTotal then .bulk else .interactive
  | c, _ => c

/-- Queue one application message, entirely or not at all. -/
def send [ThirdParty] (c : Connection) (id : StreamId) (msg : Bytes) (compress : Compress) :
    Connection × Except StreamError Unit :=
  match c.ready with
  | .error e => (c, .error e)
  | .ok () =>
    let params := c.paramsInForce
    let maxFrame := params.maxFrame.toNat
    if params.maxMessage.toNat < msg.length then
      (c, .error (.tooLarge msg.length params.maxMessage.toNat))
    else match c.streams.lookup id with
      | none => (c, .error .unknownStream)
      | some s =>
        if !s.localOpen then (c, .error .sendClosed)
        else if s.freeCredit < worstCase maxFrame msg then
          (c.setStream id { s with wantsWritable := true }, .error .wouldBlock)
        else
          let stance := if params.compressionAllowed then compress else .never
          let out := payloads stance s.cls (fragments maxFrame msg)
          let cls := demote c.cfg.bulkThreshold s.cls (s.writtenTotal + msg.length)
          let s' := s.pushOutbox cls out msg.length
          let c := out.foldl (fun c p => c.report id 0 p.length) (c.setStream id s')
          let headLen := if s.openSent then s'.headLen else none
          if cls ≠ s.cls then (c.reclass id s.cls cls headLen, .ok ())
          else match headLen with
            | some len => (c.activateStream id cls len, .ok ())
            | none => (c, .ok ())

/-- Half-close our direction. Queued DATA still goes out first. -/
def finish (c : Connection) (id : StreamId) : Connection × Except StreamError Unit :=
  match c.ready with
  | .error e => (c, .error e)
  | .ok () =>
    match c.streams.lookup id with
    | none => (c, .error .unknownStream)
    | some s =>
      if !s.localOpen then (c, .error .sendClosed)
      else
        let c := c.setStream id { s with localOpen := false }
        (if s.outbox.isEmpty then (c.queueFin id).maybeForget id else c, .ok ())

/-- Abort both directions immediately. -/
def reset [ThirdParty] (c : Connection) (id : StreamId) (code : UInt32) :
    Connection × Except StreamError Unit :=
  match c.ready with
  | .error e => (c, .error e)
  | .ok () =>
    match c.streams.lookup id with
    | none => (c, .error .unknownStream)
    | some _ =>
      ((c.dropStream id).pushControl ⟨id, .rst, ThirdParty.rst.encode ⟨code⟩⟩, .ok ())

/-- Take the next complete message on a stream. -/
def recvMsg [ThirdParty] (c : Connection) (id : StreamId) :
    Connection × Except StreamError Bytes :=
  match c.ready with
  | .error e => (c, .error e)
  | .ok () =>
    match c.streams.lookup id with
    | none => (c, .error .unknownStream)
    | some s =>
      match s.inbox with
      | [] => (c, .error .wouldBlock)
      | (msg, wireLen) :: rest =>
        if s.remoteOpen then
          let r := s.recv.onConsumed wireLen
          let c := c.setStream id { s with inbox := rest, recv := r.1 }
          (match r.2 with
            | some credit => c.queueWindowUpdate id credit
            | none => c, .ok msg)
        else
          let c := c.setStream id { s with inbox := rest }
          (if rest.isEmpty then c.finishedStream id else c, .ok msg)

/-- Move a stream to another scheduling class. -/
def setClass (c : Connection) (id : StreamId) (cls : Class) :
    Connection × Except StreamError Unit :=
  match c.ready with
  | .error e => (c, .error e)
  | .ok () =>
    if cls = .control then (c, .error .invalidClass)
    else match c.streams.lookup id with
      | none => (c, .error .unknownStream)
      | some s =>
        if s.cls = cls then (c, .ok ())
        else
          let headLen := if s.openSent then s.headLen else none
          ((c.setStream id { s with cls }).reclass id s.cls cls headLen, .ok ())

end Connection

end TunnelWeaver.Mux
