import TunnelWeaver.Mux.Tracking
import TunnelWeaver.Server.Relay

/-! The client's side of its connection (`start.rs`, `proxy.rs`): it registers its services on
control streams and hands each stream that the relay opens to an origin task. The task and the
handler share two bounded channels, one for the request body and one for the response; a frame of
the body that finds its channel full is parked in a task of its own. What the origin does is up to
the origin. Reports to the user are not modelled. -/

namespace TunnelWeaver.Client

open Mux (Bytes Call CloseReason Compress Event Instant KeyId StreamId ThirdParty Watch)
open Proto (BodyFrame ControlHead ControlReply Head HttpHead HttpResponseHead Postcard ResetCode)
open Server (BodyItem HttpTypes validFields)

/-- Frames of a request body that may be queued toward the origin. -/
def reqBodyQueue : Nat := 4

/-- Response messages that may be queued from the origin. -/
def outQueue : Nat := 4

/-- A message of the origin task; `done` is its `End`. -/
inductive OutMsg where
  | head (head : HttpResponseHead)
  | frame (frame : BodyFrame)
  | done
  deriving DecidableEq

/-- An origin task and its channels. `out` are the messages still in the response channel, of all
that were `emitted` into it, and `notices` the wake-ups that did not reach the handler yet. `body`
are the frames in the request body channel, after those `received`; `parked` waits for room. -/
structure Task where
  emitted : List OutMsg := []
  out : List OutMsg := []
  outOpen : Bool := true
  notices : Nat := 0
  received : List BodyItem := []
  body : List BodyItem := []
  bodyOpen : Bool := true
  parked : Option BodyItem := none
  deriving DecidableEq

/-- A visitor exchange in progress on one stream; `task` is the origin task it was started with, and
`reqBodyTx` whether the sending end of the request body channel is held. -/
structure Exchange where
  req : HttpHead
  task : Nat
  outHead : Option Bytes := none
  pendingBytes : List (Bytes × Compress) := []
  outDone : Bool := false
  compress : Compress := .auto
  reqBodyTx : Bool := true
  reqDone : Bool := false
  reqPaused : Bool := false
  finSent : Bool := false

/-- What the handler did on a stream. -/
inductive Note where
  | started
  | finish
  | reset
  deriving DecidableEq

/-- What there is of a stream: its exchange, the origin tasks that were started for it and a record
of what the handler did. -/
structure Visit where
  exchange : Option Exchange := none
  tasks : List Task := []
  log : List Note := []

namespace Visit

def note (x : Visit) (n : Note) : Visit := { x with log := x.log ++ [n] }

def hold (x : Visit) (ex : Exchange) : Visit := { x with exchange := some ex }

/-- Forget the exchange; its ends of the channels go with it. -/
def remove (x : Visit) : Visit := { x with exchange := none }

def modify (x : Visit) (n : Nat) (f : Task → Task) : Visit := { x with tasks := x.tasks.modify n f }

/-- The messages in the response channel. -/
def out (x : Visit) (n : Nat) : List OutMsg := ((x.tasks[n]?).map (·.out)).getD []

/-- The origin task holds its end of the response channel. -/
def outOpen (x : Visit) (n : Nat) : Bool := (x.tasks[n]?).any (·.outOpen)

/-- The oldest message is taken from the response channel. -/
def pop (x : Visit) (n : Nat) : Visit := x.modify n fun t => { t with out := t.out.tail }

/-- `Event::Finished`: the request body is complete. -/
def bodyFinished (x : Visit) : Visit :=
  match x.exchange with
  | none => x
  | some ex =>
    if ex.finSent then x.remove else x.hold { ex with reqDone := true, reqBodyTx := false }

end Visit

section
variable [ThirdParty]

/-! ## Responses -/

/-- How far the messages that wait for credit went out. -/
inductive Flushed where
  | all
  | blocked
  | failed

def flushHead (id : StreamId) (w : Watch) (ex : Exchange) : Watch × Exchange × Flushed :=
  match ex.outHead with
  | none => (w, ex, .all)
  | some bytes =>
    let w' := w.call (.send id bytes Proto.Policy.headCompress)
    match (w.node.conn.send id bytes Proto.Policy.headCompress).2 with
    | .ok () => (w', { ex with outHead := none }, .all)
    | .error .wouldBlock => (w', ex, .blocked)
    | .error _ => (w', ex, .failed)

def flushPending (id : StreamId) :
    List (Bytes × Compress) → Watch → Watch × List (Bytes × Compress) × Flushed
  | [], w => (w, [], .all)
  | msg :: rest, w =>
    let w' := w.call (.send id msg.1 msg.2)
    match (w.node.conn.send id msg.1 msg.2).2 with
    | .ok () => flushPending id rest w'
    | .error .wouldBlock => (w', msg :: rest, .blocked)
    | .error _ => (w', msg :: rest, .failed)

/-- The head goes out before the body frames. -/
def flush (id : StreamId) (w : Watch) (ex : Exchange) : Watch × Exchange × Flushed :=
  match flushHead id w ex with
  | (w, ex, .all) =>
    let x := flushPending id ex.pendingBytes w
    (x.1, { ex with pendingBytes := x.2.1 }, x.2.2)
  | x => x

/-- The response is complete and everything went out. On an upgraded pipe the relay may still
forward bytes of the visitor, so the exchange stays until the relay finishes too. -/
def complete (id : StreamId) (w : Watch) (x : Visit) (ex : Exchange) : Watch × Visit :=
  let ex := { ex with outDone := true }
  let y := if ex.finSent then (w, x, ex)
    else (w.call (.finish id), x.note .finish, { ex with finSent := true })
  if ex.reqDone then (y.1, y.2.1.remove) else (y.1, y.2.1.hold y.2.2)

variable [Postcard]

/-- The loop of `pump_out`, over the messages in the response channel. -/
def pumpTurns (id : StreamId) : List OutMsg → Watch → Visit → Exchange → Watch × Visit
  | out, w, x, ex =>
    match flush id w ex with
    | (w, ex, .blocked) => (w, x.hold ex)
    | (w, _, .failed) => (w, x.remove)
    | (w, ex, .all) =>
      match out with
      | [] => if x.outOpen ex.task then (w, x.hold ex) else complete id w x ex
      | .done :: _ => complete id w (x.pop ex.task) ex
      | .head head :: rest =>
        match Postcard.responseHead.encode head with
        | .ok bytes =>
          -- Flushed on the next turn.
          pumpTurns id rest w (x.pop ex.task) { ex with
            outHead := some bytes
            compress := Proto.Policy.responseBodyCompress ex.req head }
        | .error _ => (w, (x.pop ex.task).remove)
      | .frame frame :: rest =>
        match Postcard.bodyFrame.encode frame with
        | .ok bytes =>
          pumpTurns id rest w (x.pop ex.task) { ex with
            pendingBytes := ex.pendingBytes ++ [(bytes, ex.compress)] }
        | .error _ => (w, (x.pop ex.task).remove)

/-- Flush the origin's response within credit, and finish the stream once it is complete. -/
def pumpOut (id : StreamId) (w : Watch) (x : Visit) : Watch × Visit :=
  match x.exchange with
  | none => (w, x)
  | some ex => pumpTurns id (x.out ex.task) w x ex

/-! ## Requests -/

/-- What follows the first dash. -/
def afterDash (s : List Char) : Option (List Char) := (s.dropWhile (· ≠ '-')).tail?

/-- The service of a visitor, `<person>-<machine>-<service>.<root>`. -/
def serviceOf (authority : String) : Option String := do
  let label := (authority.toList.takeWhile fun c => c ≠ '.' && c ≠ ':').map Char.toLower
  return String.ofList (← afterDash (← afterDash label))

def resolveService (services : List String) (authority : String) : Option String := do
  let service ← serviceOf authority
  services.find? (· == service)

omit [ThirdParty] in
/-- The head of a visitor request that one of the services serves. -/
def resolved (services : List String) (first : Bytes) : Option HttpHead :=
  match Postcard.head.decode first with
  | .ok (.http head) => if (resolveService services head.authority).isSome then some head else none
  | _ => none

/-- A new visitor stream: decode its head, spawn the origin task and remember the exchange. -/
def startExchange (services : List String) (id : StreamId) (first : Bytes) (w : Watch) (x : Visit) :
    Watch × Visit :=
  let x := x.note .started
  match resolved services first with
  | some head => (w, { x with
      exchange := some { req := head, task := x.tasks.length }
      tasks := x.tasks ++ [{}] })
  | none => (w.call (.reset id ResetCode.cancelled.asU32), x.note .reset)

variable [HttpTypes]

def frameItem : BodyFrame → BodyItem
  | .chunk data => .data data
  | .trailers fields => .trailers (validFields fields)

omit [ThirdParty] in
/-- One body message from the relay. If the channel is full, a task waits for room. -/
def onVisitorBody (x : Visit) (msg : Bytes) : Visit :=
  match x.exchange with
  | none => x
  | some ex =>
    match Postcard.bodyFrame.decode msg with
    | .error _ => x.hold { ex with reqDone := true, reqBodyTx := false }
    | .ok frame =>
      if ex.reqBodyTx then
        match x.tasks[ex.task]? with
        | none => x
        | some t =>
          if !t.bodyOpen then x
          else if t.body.length < reqBodyQueue then
            x.modify ex.task fun t => { t with body := t.body ++ [frameItem frame] }
          else
            { x with exchange := some { ex with reqPaused := true } }.modify ex.task fun t =>
              { t with parked := some (frameItem frame) }
      else x

/-- The messages available on a visitor stream, until the queue toward the origin is full; at most
`fuel` of them. -/
def drainStream (id : StreamId) : Nat → Watch → Visit → Watch × Visit
  | 0, w, x => (w, x)
  | fuel + 1, w, x =>
    if x.exchange.any (!·.reqPaused) then
      match (w.node.conn.recvMsg id).2 with
      | .ok msg => drainStream id fuel (w.call (.recvMsg id)) (onVisitorBody x msg)
      | .error _ => (w.call (.recvMsg id), x)
    else (w, x)

def drain (id : StreamId) (w : Watch) (x : Visit) : Watch × Visit :=
  drainStream id (w.inbox id).length w x

/-- A stream that is not a control stream has something to read. -/
def onReadable (services : List String) (id : StreamId) (w : Watch) (x : Visit) : Watch × Visit :=
  match x.exchange with
  | some _ => drain id w x
  | none =>
    match (w.node.conn.recvMsg id).2 with
    | .ok msg =>
      let y := startExchange services id msg (w.call (.recvMsg id)) x
      drain id y.1 y.2
    | .error _ => (w.call (.recvMsg id), x)

end

/-! ## The handler -/

/-- The handler with its connection. `opened` are the streams it opened itself, and `lost` tells that
the connection went away and the handler with it. -/
structure ProxyHandler where
  mux : Watch
  services : List String
  control : Map StreamId String := ∅
  visits : Map StreamId Visit := ∅
  opened : List StreamId := []
  lost : Bool := false

namespace ProxyHandler

def visit (h : ProxyHandler) (id : StreamId) : Visit := (h.visits.lookup id).getD {}

def setVisit (h : ProxyHandler) (id : StreamId) (x : Visit) : ProxyHandler :=
  { h with visits := h.visits.insert id x }

/-- Work on one stream. -/
def on (h : ProxyHandler) (id : StreamId) (f : Watch → Visit → Watch × Visit) : ProxyHandler :=
  let y := f h.mux (h.visit id)
  { h with mux := y.1 }.setVisit id y.2

section
variable [ThirdParty]

/-- `finish` on each control stream. -/
def finishControl (h : ProxyHandler) : ProxyHandler :=
  { h with mux := (h.control.keys.map Call.finish).foldl Watch.call h.mux }

def shutdown (h : ProxyHandler) : ProxyHandler :=
  { h.finishControl with
    mux := h.finishControl.mux.call (.close (.new .shutdown)) }

/-- Drop the registrations while the connection stays up. -/
def release (h : ProxyHandler) : ProxyHandler := { h.finishControl with control := ∅ }

/-- The handler is dropped with its connection. -/
def lose (h : ProxyHandler) : ProxyHandler :=
  { h with
    lost := true
    visits := h.visits.mapValues Visit.remove }

variable [Postcard]

def openControl (h : ProxyHandler) (service : String) : ProxyHandler :=
  match ControlHead.ofService service with
  | .error _ => h
  | .ok head =>
    match Postcard.head.encode (.control head) with
    | .error _ => h
    | .ok bytes =>
      let w := h.mux.call (.open Proto.Policy.controlClass)
      match (h.mux.node.conn.open Proto.Policy.controlClass).2 with
      | .error _ => { h with mux := w }
      | .ok id =>
        let h := { h with
          mux := w.call (.send id bytes Proto.Policy.controlCompress)
          opened := id :: h.opened }
        match (w.node.conn.send id bytes Proto.Policy.controlCompress).2 with
        | .ok () => { h with control := h.control.insert id service }
        | .error _ => h

/-- One control stream for each service. -/
def registerServices (h : ProxyHandler) : ProxyHandler := h.services.foldl openControl h

/-- A reply that makes no sense ends the connection. -/
def onControlReply (h : ProxyHandler) (msg : Bytes) : ProxyHandler :=
  match Postcard.controlReply.decode msg with
  | .ok (.registered _) | .ok (.refused ..) | .ok (.certState _) => h
  | .ok .revoked | .error _ => { h with mux := h.mux.call (.close (.new .shutdown)) }

/-- The replies on a control stream; at most `fuel` of them. -/
def readControl (id : StreamId) : Nat → ProxyHandler → ProxyHandler
  | 0, h => h
  | fuel + 1, h =>
    let h' := { h with mux := h.mux.call (.recvMsg id) }
    match (h.mux.node.conn.recvMsg id).2 with
    | .ok msg => readControl id fuel (h'.onControlReply msg)
    | .error _ => h'

variable [HttpTypes]

def onEvent (h : ProxyHandler) : Event → ProxyHandler
  | .authenticated .. => h.registerServices
  | .rejected .. => h
  | .readable id =>
    if (h.control.lookup id).isSome then readControl id (h.mux.inbox id).length h
    else h.on id (onReadable h.services id)
  | .writable id _ => h.on id (pumpOut id)
  | .finished id => h.on id fun w x => (w, x.bodyFinished)
  | .reset id _ => h.on id fun w x => (w, x.remove)
  | .streamOpened .. | .closed _ => h

end

end ProxyHandler

/-! ## Runs -/

/-- What happens to a client: its connection faces the network and the clock, an event or a command
reaches the handler, or origin task `n` of stream `id` gets further. -/
inductive ProxyAction where
  | recv (now : Instant) (bytes : Bytes)
  | timeout (now : Instant) (stillValid : Nat → KeyId → Bool) (fuel : Nat)
  | transmit
  | event
  | shutdown
  | release
  /-- The transport is gone. -/
  | lost
  /-- The task sends a message toward the relay, and wakes the handler. -/
  | deposit (id : StreamId) (n : Nat) (msg : OutMsg)
  | notified (id : StreamId) (n : Nat)
  /-- The task is over. -/
  | exit (id : StreamId) (n : Nat)
  /-- The request body is read at the origin, or nobody reads it any more. -/
  | take (id : StreamId) (n : Nat)
  | hangup (id : StreamId) (n : Nat)
  /-- The parked frame gets into its channel, or its channel is gone. -/
  | unparked (id : StreamId) (n : Nat)
  /-- The origin failed mid-body. -/
  | failed (id : StreamId) (n : Nat) (code : UInt32)

namespace ProxyHandler
variable [ThirdParty] [Postcard] [HttpTypes]

def new (conn : Mux.Connection) (services : List String) : ProxyHandler :=
  { mux := .new conn.setBytesSink, services }

/-- Work on one stream, if the handler is still there. -/
def spawnOn (h : ProxyHandler) (id : StreamId) (f : Watch → Visit → Watch × Visit) : ProxyHandler :=
  if h.lost then h else h.on id f

/-- A message is accepted while the exchange holds the receiving end. Nothing comes after `done`. -/
def deposit (x : Visit) (n : Nat) (t : Task) (msg : OutMsg) : Option Visit :=
  if t.outOpen ∧ .done ∉ t.emitted then
    if x.exchange.any (·.task == n) then
      if t.out.length < outQueue then
        some (x.modify n fun t => { t with
          emitted := t.emitted ++ [msg], out := t.out ++ [msg], notices := t.notices + 1 })
      else none
    else some (x.modify n fun t => { t with notices := t.notices + 1 })
  else none

/-- The parked frame gets in. -/
def unpark (x : Visit) (n : Nat) (t : Task) : Option Visit :=
  match t.parked with
  | none => none
  | some item =>
    if !t.bodyOpen then some (x.modify n fun t => { t with parked := none })
    else if t.body.length < reqBodyQueue then
      some (x.modify n fun t => { t with parked := none, body := t.body ++ [item] })
    else none

/-- The handler goes on reading. -/
def resume (id : StreamId) (w : Watch) (x : Visit) : Watch × Visit :=
  drain id w { x with exchange := x.exchange.map fun ex => { ex with reqPaused := false } }

/-- The origin task asks for a reset. -/
def resetExchange (id : StreamId) (code : UInt32) (w : Watch) (x : Visit) : Watch × Visit :=
  match x.exchange with
  | none => (w, x)
  | some _ => (w.call (.reset id code), x.remove.note .reset)

/-- What the origin task itself does. -/
def taskStep (h : ProxyHandler) (id : StreamId) (n : Nat) (f : Visit → Task → Option Visit) :
    Option ProxyHandler :=
  ((h.visit id).tasks[n]?).bind fun t => (f (h.visit id) t).map (h.setVisit id)

def step (h : ProxyHandler) : ProxyAction → Option ProxyHandler
  | .recv now bytes => (h.mux.face (.recv now bytes)).map fun mux => { h with mux }
  | .timeout now stillValid fuel =>
    (h.mux.face (.handleTimeout now stillValid fuel)).map fun mux => { h with mux }
  | .transmit => (h.mux.face .pollTransmit).map fun mux => { h with mux }
  | .event =>
    if h.lost then none
    else h.mux.node.conn.pollEvent.2.map fun ev =>
      { h with mux := h.mux.call .pollEvent }.onEvent ev
  | .shutdown => if h.lost then none else some h.shutdown
  | .release => if h.lost then none else some h.release
  | .lost => if h.lost then none else some h.lose
  | .deposit id n msg => h.taskStep id n fun x t => deposit x n t msg
  | .notified id n =>
    (h.taskStep id n fun x t =>
      if 0 < t.notices then some (x.modify n fun t => { t with notices := t.notices - 1 })
      else none).map fun h => h.spawnOn id (pumpOut id)
  | .exit id n => h.taskStep id n fun x _ => some (x.modify n fun t => { t with outOpen := false })
  | .take id n => h.taskStep id n fun x t =>
    if t.bodyOpen then
      match t.body with
      | [] => none
      | item :: rest =>
        some (x.modify n fun t => { t with received := t.received ++ [item], body := rest })
    else none
  | .hangup id n => h.taskStep id n fun x _ =>
    some (x.modify n fun t => { t with bodyOpen := false })
  | .unparked id n =>
    (h.taskStep id n fun x t => unpark x n t).map fun h => h.spawnOn id (resume id)
  | .failed id n code =>
    (h.taskStep id n fun x _ => some x).map fun h => h.spawnOn id (resetExchange id code)

def run (h : ProxyHandler) (actions : List ProxyAction) : Option ProxyHandler :=
  Automaton.run step h actions

end ProxyHandler

end TunnelWeaver.Client
