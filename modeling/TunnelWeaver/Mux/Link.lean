import TunnelWeaver.Mux.Endpoint

/-! Two endpoints joined by FIFO channels. `Link` is the invariant of one direction: handshake,
order of OPEN frames, window updates and the `Channel` of every stream. `Duplex` joins both
directions with the local invariants and the delivery ledgers; `Duplex.step` says every step of
either endpoint keeps it. -/

namespace TunnelWeaver.Mux

/-! ## The handshake -/

/-- Where a receiver stands: in some handshake state, or closed. -/
inductive Phase where
  | hs (s : HandshakeState)
  | closed

section
variable [ThirdParty]

/-- The connection-level legality of a frame: what it makes of a receiver in handshake state `s`. -/
inductive PhaseStep (P : Params) (f : Frame) : HandshakeState → Phase → Prop where
  | goaway {s r} : f.streamId = 0 → f.frameType = .goaway →
    ThirdParty.goaway.decode f.payload = some r → PhaseStep P f s .closed
  | challenge {c} : f.streamId = 0 → f.frameType = .challenge →
    ThirdParty.challenge.decode f.payload = some c → PhaseStep P f .awaitChallenge (.hs .helloSent)
  | hello {h} : f.streamId = 0 → f.frameType = .hello →
    ThirdParty.hello.decode f.payload = some h → PhaseStep P f .challengeSent (.hs .done)
  | welcome {version} : f.streamId = 0 → f.frameType = .welcome →
    ThirdParty.welcome.decode f.payload = some ⟨version, P⟩ →
    acceptVersion maxVersion version = true → PhaseStep P f .helloSent (.hs .done)
  | reject {r} : f.streamId = 0 → f.frameType = .reject →
    ThirdParty.reject.decode f.payload = some r → PhaseStep P f .helloSent .closed
  | ordinary : Ordinary f → PhaseStep P f .done (.hs .done)

/-- The frames `fs` are legal at the connection level from phase `p` on and lead to another. -/
inductive PhaseRun (P : Params) : Phase → List Frame → Phase → Prop where
  | nil {p} : PhaseRun P p [] p
  | closed {f fs} : PhaseRun P .closed (f :: fs) .closed
  | cons {s p q f fs} : PhaseStep P f s p → PhaseRun P p fs q → PhaseRun P (.hs s) (f :: fs) q

variable {P : Params} {p q : Phase} {f : Frame} {fs gs : List Frame}

theorem PhaseRun.of_closed (h : PhaseRun P .closed fs p) : p = .closed := by
  cases h <;> rfl

theorem PhaseRun.append {r : Phase} (h : PhaseRun P p fs q) (h' : PhaseRun P q gs r) :
    PhaseRun P p (fs ++ gs) r := by
  induction h with
  | nil => exact h'
  | closed =>
    rw [h'.of_closed]
    exact .closed
  | cons hs _ ih => exact .cons hs (ih h')

theorem PhaseRun.split {r : Phase} (h : PhaseRun P p (fs ++ gs) r) :
    ∃ q, PhaseRun P p fs q ∧ PhaseRun P q gs r := by
  induction fs generalizing p with
  | nil => exact ⟨p, .nil, h⟩
  | cons f fs ih =>
    cases h with
    | closed =>
      refine ⟨.closed, .closed, ?_⟩
      cases gs with
      | nil => exact .nil
      | cons => exact .closed
    | cons hs h =>
      obtain ⟨q, h1, h2⟩ := ih h
      exact ⟨q, .cons hs h1, h2⟩

/-- GOAWAY is legal at any time. -/
theorem PhaseRun.goaway (h : PhaseRun P p fs q) (r : CloseReason) :
    PhaseRun P p (fs ++ [⟨0, .goaway, ThirdParty.goaway.encode r⟩]) .closed := by
  refine h.append ?_
  cases q with
  | closed => exact .closed
  | hs s => exact .cons (.goaway rfl rfl (Codec.decode_encode ..)) .nil

end

/-- Where the peer of an open endpoint stands once it has read everything sent so far. -/
def Endpoint.peerPhase (e : Endpoint) : Phase :=
  match e.server, e.hs with
  | true, .done => .hs .done
  | true, _ => .hs .helloSent
  | false, .awaitChallenge => .hs .challengeSent
  | false, _ => .hs .done

theorem Endpoint.peerPhase_done {e : Endpoint} (h : e.hs = .done) : e.peerPhase = .hs .done := by
  unfold peerPhase
  rw [h]
  cases e.server <;> rfl

/-! ## Parties -/

/-- An endpoint with the frames it has sent and its peer has not received, the messages it accepted
and returned on each stream, and the `Finished` events taken from it. -/
structure Party where
  e : Endpoint
  wire : List Frame
  sent : StreamId → List Bytes
  taken : StreamId → List Bytes
  polled : List StreamId

namespace Party

/-- The frames of control class on their way to the peer. -/
def outgoing (x : Party) : List Frame := x.wire ++ x.e.control

variable [ThirdParty]

structure Good (P : Params) (x : Party) : Prop where
  endpoint : x.e.Good P
  wire : ∀ f ∈ x.wire, f.streamId < 2 ^ 32 ∧ (f.frameType = .data → f.payload.length < 2 ^ 32)

/-- One endpoint acts, with its effect on the channels and the records. -/
inductive Step (P : Params) (x y : Party) : Party → Party → Prop where
  | tau {e} : x.e.Step P .tau e → Step P x y { x with e } y
  | emit {f e} : x.e.Step P (.emit f) e → Step P x y { x with e, wire := x.wire ++ [f] } y
  | consume {f e w} : x.e.Step P (.consume f) e → y.wire = f :: w →
    Step P x y { x with e } { y with wire := w }
  | accept {i m e} : x.e.Step P (.accept i m) e →
    Step P x y { x with e, sent := Function.update x.sent i (x.sent i ++ [m]) } y
  | take {i m e} : x.e.Step P (.take i m) e →
    Step P x y { x with e, taken := Function.update x.taken i (x.taken i ++ [m]) } y
  | polled {i e} : x.e.Step P (.polled i) e →
    Step P x y { x with e, polled := x.polled ++ [i] } y

end Party

section
variable [ThirdParty]

/-- The invariant of the direction from `x` to an open `y`. -/
structure Link (P : Params) (x y : Party) : Prop where
  phase : ∃ p, PhaseRun P (.hs y.e.hs) (x.wire ++ x.e.prio) p ∧
    (x.e.closed = false → p = x.e.peerPhase)
  order : (y.e.lastPeer :: (openIds x.outgoing ++ [x.e.next])).Pairwise (· < ·)
  updates : ∀ f ∈ x.outgoing, f.frameType = .windowUpdate →
    (∃ wu, ThirdParty.windowUpdate.decode f.payload = some wu) ∧ y.e.Known f.streamId
  channel : ∀ i, Channel P y.e.server i (y.e.view i) (streamFrames i x.outgoing) (x.e.sendHalf i)
    (x.e.Known i) (grants i y.outgoing) (x.sent i) (y.taken i)

/-- What `y` has returned to its application of what `x` accepted. -/
structure Ledger (x y : Party) : Prop where
  taken : ∀ i, y.taken i <+: x.sent i
  finished : ∀ i ∈ y.e.finished ++ y.polled, y.taken i = x.sent i ∧ x.e.Known i ∧
    ∀ s, x.e.sendHalf i = some s → s.localOpen = false

/-- The invariant of a pair of endpoints. -/
structure Duplex (P : Params) (x y : Party) : Prop where
  left : x.Good P
  right : y.Good P
  roles : y.e.server = !x.e.server
  ahead : y.e.lastPeer < x.e.next
  backAhead : x.e.lastPeer < y.e.next
  link : y.e.closed = false → Link P x y
  back : x.e.closed = false → Link P y x
  ledger : Ledger x y
  backLedger : Ledger y x

variable {P : Params} {x y : Party}

theorem Duplex.symm (D : Duplex P x y) : Duplex P y x where
  left := D.right
  right := D.left
  roles := by rw [D.roles, Bool.not_not]
  ahead := D.backAhead
  backAhead := D.ahead
  link := D.back
  back := D.link
  ledger := D.backLedger
  backLedger := D.ledger

end

end TunnelWeaver.Mux
