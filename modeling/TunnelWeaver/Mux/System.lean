import TunnelWeaver.Mux.RefineRecv

/-! A client and a server connection joined by two FIFO lossless channels of encoded frames.
`System.step` lets either application call its connection, a clock fire deadlines, a connection put
a frame on the wire or read the oldest one; `Joined` is the invariant of every run. -/

namespace TunnelWeaver.Mux

/-- The calls an application makes. -/
inductive Call where
  | open (cls : Class)
  | send (id : StreamId) (msg : Bytes) (compress : Compress)
  | recvMsg (id : StreamId)
  | finish (id : StreamId)
  | reset (id : StreamId) (code : UInt32)
  | setClass (id : StreamId) (cls : Class)
  | close (reason : CloseReason)
  | pollEvent
  | setBytesSink

inductive Action where
  | call (k : Call)
  | handleTimeout (now : Instant) (stillValid : Nat → KeyId → Bool) (fuel : Nat)
  | pollTransmit
  | recv (now : Instant)

/-- A connection with the frames it sent and its peer has not read, the messages `send` accepted
and `recv_msg` returned on each stream, and the events its application polled. -/
structure Node where
  conn : Connection
  wire : List Bytes
  sent : StreamId → List Bytes
  taken : StreamId → List Bytes
  polled : List Event

namespace Node

def new (conn : Connection) : Node := ⟨conn, [], fun _ => [], fun _ => [], []⟩

def accept (n : Node) (id : StreamId) (msg : Bytes) : Node :=
  { n with sent := Function.update n.sent id (n.sent id ++ [msg]) }

def take (n : Node) (id : StreamId) (msg : Bytes) : Node :=
  { n with taken := Function.update n.taken id (n.taken id ++ [msg]) }

variable [ThirdParty]

def call (n : Node) : Call → Node
  | .open cls => { n with conn := (n.conn.open cls).1 }
  | .send id msg compress =>
    let r := n.conn.send id msg compress
    match r.2 with
    | .ok () => { n with conn := r.1 }.accept id msg
    | .error _ => { n with conn := r.1 }
  | .recvMsg id =>
    let r := n.conn.recvMsg id
    match r.2 with
    | .ok msg => { n with conn := r.1 }.take id msg
    | .error _ => { n with conn := r.1 }
  | .finish id => { n with conn := (n.conn.finish id).1 }
  | .reset id code => { n with conn := (n.conn.reset id code).1 }
  | .setClass id cls => { n with conn := (n.conn.setClass id cls).1 }
  | .close reason => { n with conn := n.conn.close reason }
  | .pollEvent =>
    { n with conn := n.conn.pollEvent.1, polled := n.polled ++ n.conn.pollEvent.2.toList }
  | .setBytesSink => { n with conn := n.conn.setBytesSink }

/-- One action of `n`; reading takes the oldest frame of its peer. -/
def act (n peer : Node) : Action → Option (Node × Node)
  | .call k => some (n.call k, peer)
  | .handleTimeout now stillValid fuel =>
    (n.conn.handleTimeout now stillValid fuel).map fun conn => ({ n with conn }, peer)
  | .pollTransmit =>
    let r := n.conn.pollTransmit
    some ({ n with conn := r.1, wire := n.wire ++ r.2.toList }, peer)
  | .recv now =>
    match peer.wire with
    | [] => none
    | bytes :: wire => some ({ n with conn := (n.conn.recv now bytes).1 }, { peer with wire })

end Node

inductive Side where
  | client
  | server
  deriving DecidableEq

def Side.other : Side → Side
  | .client => .server
  | .server => .client

structure System where
  client : Node
  server : Node

namespace System

def node (s : System) : Side → Node
  | .client => s.client
  | .server => s.server

variable [ThirdParty]

def step (s : System) (a : Side × Action) : Option System :=
  match a.1 with
  | .client => (s.client.act s.server a.2).map fun r => ⟨r.1, r.2⟩
  | .server => (s.server.act s.client a.2).map fun r => ⟨r.2, r.1⟩

def run (s : System) (actions : List (Side × Action)) : Option System :=
  Automaton.run step s actions

end System

/-- The configurations of two honest endpoints that meet. -/
structure Setup where
  client : Config
  server : Config
  signer : Signer
  verifier : Verifier
  params : Params
  reverify : Option Duration
  clientStart : Instant
  serverStart : Instant
  client_role : client.role = .client signer
  server_role : server.role = .server verifier params reverify
  serverName_eq : client.serverName = server.serverName
  channelBinding_eq : client.channelBinding = server.channelBinding
  maxFrame_lt : params.maxFrame.toNat + Frame.headerLen < 2 ^ 32

/-- The parameters in force once the handshake is done. -/
def Setup.negotiated (S : Setup) : Params := S.params.normalize

def Setup.init [ThirdParty] (S : Setup) : System where
  client := .new (.new S.client S.clientStart)
  server := .new (.new S.server S.serverStart)

/-! ## The invariant -/

/-- The node as its peer sees it; `wire` are the frames its bytes on the wire encode. -/
def Node.party (n : Node) (wire : List Frame) : Party where
  e := n.conn.core
  wire := wire
  sent := n.sent
  taken := n.taken
  polled := n.polled.filterMap Event.finishedId

variable [ThirdParty] {P : Params} {a b a' b' : Node}

/-- Two connections whose cores are a `Duplex`. -/
structure Joined (P : Params) (a b : Node) : Prop where
  wf : a.conn.Wf P
  peerWf : b.conn.Wf P
  duplex : ∃ fs gs, a.wire = fs.map Frame.encode ∧ b.wire = gs.map Frame.encode ∧
    Duplex P (a.party fs) (b.party gs)

namespace Joined

open Endpoint (Silent Act)

theorem symm (J : Joined P a b) : Joined P b a where
  wf := J.peerWf
  peerWf := J.wf
  duplex :=
    let ⟨fs, gs, hfs, hgs, D⟩ := J.duplex
    ⟨gs, fs, hgs, hfs, D.symm⟩

theorem good (J : Joined P a b) : a.conn.core.Good P :=
  let ⟨_, _, _, _, D⟩ := J.duplex
  D.left.endpoint

/-- The connection did nothing its peer or application can tell. -/
theorem silent (J : Joined P a b) (hP : P.InRange) {conn : Connection} (W : conn.Wf P)
    (H : Silent P a.conn.core conn.core) : Joined P { a with conn } b where
  wf := W
  peerWf := J.peerWf
  duplex :=
    let ⟨fs, gs, hfs, hgs, D⟩ := J.duplex
    ⟨fs, gs, hfs, hgs, D.silent hP H⟩

theorem same (J : Joined P a b) {conn : Connection} (W : conn.Wf P)
    (H : conn.core = a.conn.core) : Joined P { a with conn } b where
  wf := W
  peerWf := J.peerWf
  duplex := by
    obtain ⟨fs, gs, hfs, hgs, D⟩ := J.duplex
    refine ⟨fs, gs, hfs, hgs, ?_⟩
    rw [show Node.party { a with conn } fs = a.party fs by simp [Node.party, H]]
    exact D

/-- The connection took a visible step, then silent ones. -/
theorem visible (J : Joined P a b) (hP : P.InRange) {l : Endpoint.Label} (W : a'.conn.Wf P)
    (Wb : b'.conn.Wf P) (H : Act P a.conn.core l a'.conn.core)
    (D' : ∀ {fs gs e}, a.wire = fs.map Frame.encode → b.wire = gs.map Frame.encode →
      Duplex P (a.party fs) (b.party gs) → a.conn.core.Step P l e →
      ∃ fs' gs', a'.wire = fs'.map Frame.encode ∧ b'.wire = gs'.map Frame.encode ∧
        Duplex P { a'.party fs' with e } (b'.party gs')) : Joined P a' b' where
  wf := W
  peerWf := Wb
  duplex := by
    obtain ⟨fs, gs, hfs, hgs, D⟩ := J.duplex
    obtain ⟨e, hstep, hsilent⟩ := H
    obtain ⟨fs', gs', hfs', hgs', D₁⟩ := D' hfs hgs D hstep
    exact ⟨fs', gs', hfs', hgs', D₁.silent hP hsilent⟩

theorem send (J : Joined P a b) (hP : P.InRange) (id : StreamId) (msg : Bytes)
    (compress : Compress) : Joined P (a.call (.send id msg compress)) b := by
  obtain ⟨W, h⟩ := Connection.send_refines hP J.wf J.good id msg compress
  dsimp only [Node.call]
  split
  · rename_i hok
    rw [hok] at h
    refine J.visible hP W J.peerWf h fun {fs gs e} hfs hgs D hstep => ⟨fs, gs, hfs, hgs, ?_⟩
    exact D.accept hP hstep
  · rename_i e hok
    rw [hok] at h
    exact J.same W h

theorem recvMsg (J : Joined P a b) (hP : P.InRange) (id : StreamId) :
    Joined P (a.call (.recvMsg id)) b := by
  obtain ⟨W, h⟩ := Connection.recvMsg_refines J.wf J.good id
  dsimp only [Node.call]
  split
  · rename_i msg hok
    rw [hok] at h
    refine J.visible hP W J.peerWf h fun {fs gs e} hfs hgs D hstep => ⟨fs, gs, hfs, hgs, ?_⟩
    exact D.take hP hstep
  · rename_i e hok
    rw [hok] at h
    exact J.same W h

theorem pollEvent (J : Joined P a b) (hP : P.InRange) : Joined P (a.call .pollEvent) b := by
  obtain ⟨W, h⟩ := Connection.pollEvent_refines J.wf
  have hsame : ∀ {ev : Option Event}, a.conn.pollEvent.2 = ev → ev.bind Event.finishedId = none →
      a.conn.pollEvent.1.core = a.conn.core → Joined P (a.call .pollEvent) b := by
    intro ev hev hid hcore
    obtain ⟨W', _, D⟩ := J.same W hcore
    refine ⟨W', J.peerWf, ?_⟩
    obtain ⟨fs, gs, hfs, hgs, D⟩ := D
    refine ⟨fs, gs, hfs, hgs, ?_⟩
    have : Node.party (a.call .pollEvent) fs =
        Node.party { a with conn := a.conn.pollEvent.1 } fs := by
      simp only [Node.party, Node.call, hev, List.filterMap_append, Party.mk.injEq, true_and]
      cases ev with
      | none => simp
      | some ev => simpa using hid
    rw [this]
    exact D
  split at h
  · rename_i i hev
    refine J.visible hP W J.peerWf h fun {fs gs e} hfs hgs D hstep => ⟨fs, gs, hfs, hgs, ?_⟩
    have D' := D.poll hP hstep
    have hpolled : (a.call .pollEvent).polled.filterMap Event.finishedId =
        a.polled.filterMap Event.finishedId ++ [i] := by
      simp [Node.call, hev, Event.finishedId]
    simp only [Node.party, hpolled]
    exact D'
  · rename_i hne
    refine hsame rfl ?_ h
    cases hev : a.conn.pollEvent.2 with
    | none => rfl
    | some ev =>
      cases ev <;> first | rfl | exact absurd hev (hne _)

theorem call (J : Joined P a b) (hP : P.InRange) (k : Call) : Joined P (a.call k) b := by
  cases k with
  | «open» cls =>
    obtain ⟨h, W⟩ := Connection.open_refines J.wf J.good cls
    exact J.silent hP W h
  | send id msg compress => exact J.send hP id msg compress
  | recvMsg id => exact J.recvMsg hP id
  | finish id =>
    obtain ⟨h, W⟩ := Connection.finish_refines J.wf id
    exact J.silent hP W h
  | reset id code =>
    obtain ⟨h, W⟩ := Connection.reset_refines J.wf id code
    exact J.silent hP W h
  | setClass id cls =>
    obtain ⟨h, W⟩ := Connection.setClass_refines J.wf J.good id cls
    exact J.same W h
  | close reason =>
    obtain ⟨h, W⟩ := Connection.close_refines J.wf reason
    exact J.silent hP W h
  | pollEvent => exact J.pollEvent hP
  | setBytesSink => exact J.same (J.wf.of rfl rfl rfl rfl (fun h => h) J.wf.active) rfl

theorem pollTransmit (J : Joined P a b) (hP : P.InRange) :
    Joined P { a with
      conn := a.conn.pollTransmit.1, wire := a.wire ++ a.conn.pollTransmit.2.toList } b := by
  generalize hr : a.conn.pollTransmit = r
  obtain ⟨conn, out⟩ := r
  obtain ⟨W, h⟩ := Connection.pollTransmit_refines J.wf J.good hr
  cases out with
  | none => simpa using J.same W h
  | some bytes =>
    obtain ⟨f, rfl, hact⟩ := h
    refine J.visible hP W J.peerWf hact fun {fs gs e} hfs hgs D hstep =>
      ⟨fs ++ [f], gs, ?_, hgs, D.emit hP hstep⟩
    simp [hfs]

/-- The oldest frame of an honest peer is legal. -/
theorem legal {x y : Party} (D : Duplex P x y) {f : Frame} {w : List Frame}
    (hw : y.wire = f :: w) (hc : x.e.closed = false) : Connection.Legal P x.e f := by
  have L := D.back hc
  have hout : y.outgoing = f :: (w ++ y.e.control) := by simp [Party.outgoing, hw]
  refine ⟨?_, fun ht => ?_, fun ht => ?_⟩
  · obtain ⟨q, hq, _⟩ := L.phase_cons hw
    exact ⟨q, hq⟩
  · obtain ⟨v, hrun⟩ := (L.channel f.streamId).delivery.legal
    rw [hout, streamFrames_cons_self ht, List.cons_append] at hrun
    obtain ⟨v', hstep, _⟩ := Automaton.run_cons_eq_some.mp hrun
    exact Option.isSome_iff_exists.mpr ⟨v', hstep⟩
  · exact L.updates f (by rw [hout]; exact List.mem_cons_self ..) ht

/-- The connection reads the oldest frame of its peer. -/
theorem recv (J : Joined P a b) (hP : P.InRange) (now : Instant) {bytes : Bytes}
    {wire : List Bytes} (hw : b.wire = bytes :: wire) :
    (a.conn.recv now bytes).2 = .ok () ∧
      Joined P { a with conn := (a.conn.recv now bytes).1 } { b with wire } := by
  obtain ⟨fs, gs, hfs, hgs, D⟩ := J.duplex
  obtain ⟨f, gs, rfl, rfl, rfl⟩ : ∃ f gs', gs = f :: gs' ∧ bytes = f.encode ∧
      wire = gs'.map Frame.encode := by
    cases gs with
    | nil => simp [hgs] at hw
    | cons f gs' =>
      rw [hgs, List.map_cons, List.cons.injEq] at hw
      exact ⟨f, gs', rfl, hw.1.symm, hw.2.symm⟩
  have hlt : f.streamId < 2 ^ 32 := (D.right.wire f (List.mem_cons_self ..)).1
  have hparse := Frame.parse_encode hlt
  have hL : a.conn.closed = none → Connection.Legal P a.conn.core f := fun hc =>
    legal D rfl (by simp [Node.party, Connection.core, hc])
  have hok := Connection.recv_ok hP J.wf J.good hparse hL now
  obtain ⟨W, h⟩ := Connection.recv_refines J.wf J.good now hparse hlt fun hc => (hL hc).announces
  rw [hok] at h
  obtain ⟨e, hstep, hsilent⟩ := h
  exact ⟨hok, W, J.peerWf, fs, gs, hfs, rfl, (D.consume hP rfl hstep).silent hP hsilent⟩

theorem act (J : Joined P a b) (hP : P.InRange) {x : Action} (H : a.act b x = some (a', b')) :
    Joined P a' b' := by
  cases x with
  | call k =>
    cases H
    exact J.call hP k
  | handleTimeout now stillValid fuel =>
    obtain ⟨conn, hconn, heq⟩ := Option.map_eq_some_iff.mp H
    cases heq
    obtain ⟨h, W⟩ := Connection.handleTimeout_refines J.wf hconn
    exact J.silent hP W h
  | pollTransmit =>
    cases H
    exact J.pollTransmit hP
  | recv now =>
    simp only [Node.act] at H
    split at H
    · cases H
    · rename_i bytes wire hw
      cases H
      exact (J.recv hP now hw).2

end Joined

/-! ## Runs -/

namespace Setup

variable (S : Setup)

omit [ThirdParty] in
theorem negotiated_inRange : S.negotiated.InRange := S.params.normalize_inRange

theorem client_new : Connection.new S.client S.clientStart =
    .fresh S.client.normalize S.clientStart .awaitChallenge 0 1 none none [] := by
  simp [Connection.new, Config.normalize, S.client_role, Role.normalize]

theorem server_new : Connection.new S.server S.serverStart =
    .fresh S.server.normalize S.serverStart .challengeSent S.negotiated.maxFrame.toNat 2
      (some S.server.rng) S.reverify
      [⟨0, .challenge, ThirdParty.challenge.encode ⟨S.server.rng⟩⟩] := by
  simp [Connection.new, Config.normalize, S.server_role, Role.normalize, negotiated]

theorem client_wf : (Connection.new S.client S.clientStart).Wf S.negotiated := by
  rw [client_new]
  refine ⟨(by rintro ⟨⟩), fun v p r h => ?_, (by rintro ⟨⟩), (by rintro ⟨⟩), fun i hi => ?_⟩
  · simp [Connection.fresh, Config.normalize, S.client_role, Role.normalize] at h
  · exact absurd hi (SchedTree.not_active_new _ _ i)

theorem server_wf : (Connection.new S.server S.serverStart).Wf S.negotiated := by
  rw [server_new]
  refine ⟨(by rintro ⟨⟩), fun v p r h => ?_, (by rintro ⟨⟩), (by rintro ⟨⟩), fun i hi => ?_⟩
  · simp only [Connection.fresh, Config.normalize, S.server_role, Role.normalize,
      Role.server.injEq] at h
    exact h.2.1.symm
  · exact absurd hi (SchedTree.not_active_new _ _ i)

/-- Two endpoints that have not heard of each other; the server has a CHALLENGE to send. -/
theorem duplex_init {x y : Party} (ch : Challenge)
    (hx : x = ⟨⟨false, .awaitChallenge, false, 1, 0, [], [], fun _ => none, []⟩, [], fun _ => [],
      fun _ => [], []⟩)
    (hy : y = ⟨⟨true, .challengeSent, false, 2, 0, [⟨0, .challenge, ThirdParty.challenge.encode ch⟩],
      [], fun _ => none, []⟩, [], fun _ => [], fun _ => [], []⟩) : Duplex P x y := by
  subst hx hy
  have hview : ∀ {e : Endpoint} {i h}, e.streams i = none → e.view i ≠ .live h := by
    intro e i h hs
    unfold Endpoint.view
    rw [hs]
    dsimp only
    split <;> rintro ⟨⟩
  refine ⟨⟨?_, by rintro _ ⟨⟩⟩, ⟨?_, by rintro _ ⟨⟩⟩, rfl, Nat.zero_lt_one, Nat.zero_lt_two,
    fun _ => ?_, fun _ => ?_, ?_, ?_⟩
  · exact ⟨.inr (.inl rfl), fun _ => ⟨fun _ => rfl, rfl⟩, by simp, by simp, by simp, by decide, rfl,
      by decide, by decide⟩
  · refine ⟨.inr rfl, fun _ => ⟨fun _ => rfl, rfl⟩, fun f hf => ?_, by simp, by simp,
      Nat.zero_lt_two, by simp, (by decide : 2 ≤ u32Max), Nat.zero_le _⟩
    obtain rfl := List.mem_singleton.mp hf
    exact ⟨rfl, rfl⟩
  · exact ⟨⟨_, .nil, fun _ => rfl⟩, by simp [Party.outgoing], (by rintro _ ⟨⟩),
      fun i => .init fun h => hview rfl⟩
  · exact ⟨⟨_, .cons (.challenge rfl rfl (Codec.decode_encode ..)) .nil, fun _ => rfl⟩,
      by simp [Party.outgoing], (by rintro _ ⟨⟩), fun i => .init fun h => hview rfl⟩
  · exact ⟨fun _ => List.prefix_rfl, (by rintro _ ⟨⟩)⟩
  · exact ⟨fun _ => List.prefix_rfl, (by rintro _ ⟨⟩)⟩

theorem init_joined : Joined S.negotiated S.init.client S.init.server := by
  refine ⟨S.client_wf, S.server_wf, [], [], rfl, rfl, duplex_init ⟨S.server.rng⟩ ?_ ?_⟩
  · simp only [Node.party, init, Node.new, client_new]
    simp [Connection.core, Connection.fresh, Config.normalize, S.client_role, Role.normalize,
      Role.isServer, SchedTree.new]
  · simp only [Node.party, init, Node.new, server_new]
    simp [Connection.core, Connection.fresh, Config.normalize, S.server_role, Role.normalize,
      Role.isServer, SchedTree.new]

end Setup

theorem System.step_joined {s s' : System} (hP : P.InRange) {x : Side × Action}
    (J : Joined P s.client s.server) (H : s.step x = some s') : Joined P s'.client s'.server := by
  unfold System.step at H
  split at H
  · obtain ⟨r, hr, rfl⟩ := Option.map_eq_some_iff.mp H
    exact J.act hP hr
  · obtain ⟨r, hr, rfl⟩ := Option.map_eq_some_iff.mp H
    exact (J.symm.act hP hr).symm

/-- The invariant of every run of two honest endpoints. -/
theorem System.run_joined (S : Setup) {s : System} {actions : List (Side × Action)}
    (H : S.init.run actions = some s) (side : Side) :
    Joined S.negotiated (s.node side) (s.node side.other) := by
  have J : Joined S.negotiated s.client s.server :=
    Automaton.run_invariant (p := fun _ => True) (fun J _ H => step_joined S.negotiated_inRange J H)
      (fun _ _ => trivial) S.init_joined H
  cases side with
  | client => exact J
  | server => exact J.symm

end TunnelWeaver.Mux
