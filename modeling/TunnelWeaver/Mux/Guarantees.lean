import TunnelWeaver.Mux.Postcard
import TunnelWeaver.Mux.System

/-! What two honest endpoints can rely on, whatever the interleaving: no protocol error, delivery in
order, conservation of credit. -/

namespace TunnelWeaver.Mux

/-! ## A conversation -/

namespace Sample

def key : ByteArr 32 :=
  ⟨[215, 90, 152, 1, 130, 177, 10, 183, 213, 75, 254, 211, 201, 100, 7, 58, 14, 225, 114, 243, 218,
    166, 35, 37, 175, 2, 26, 104, 247, 7, 81, 26], rfl⟩

/-- The signature of the transcript below under `key`. -/
def sig : ByteArr 64 :=
  ⟨[190, 193, 87, 202, 227, 50, 99, 192, 233, 238, 163, 79, 34, 183, 91, 98, 134, 143, 34, 141, 222,
    110, 243, 73, 153, 39, 155, 251, 75, 208, 192, 192, 33, 17, 72, 143, 176, 90, 154, 29, 1, 14, 27,
    90, 226, 131, 100, 179, 234, 224, 48, 115, 148, 136, 159, 208, 102, 14, 8, 9, 150, 175, 132, 3],
    rfl⟩

def nonceS : ByteArr 32 := ⟨List.replicate 32 7, rfl⟩

def nonceC : ByteArr 32 := ⟨List.replicate 32 3, rfl⟩

def serverName : String := "mux.example.test"

scoped instance thirdParty : ThirdParty :=
  Postcard.withSignature key (transcript nonceS nonceC serverName none) sig

/-- A client whose key the server knows, and the default parameters. -/
def setup : Setup where
  client := { role := .client ⟨.ed25519 key, fun _ => .ok (.ed25519 sig)⟩, rng := nonceC, serverName }
  server := {
    role := .server ⟨fun _ => some (.ed25519 key)⟩ .default none
    rng := nonceS
    serverName }
  signer := ⟨.ed25519 key, fun _ => .ok (.ed25519 sig)⟩
  verifier := ⟨fun _ => some (.ed25519 key)⟩
  params := .default
  reverify := none
  clientStart := 0
  serverStart := 0
  client_role := rfl
  server_role := rfl
  serverName_eq := rfl
  channelBinding_eq := rfl
  maxFrame_lt := by decide

/-- One frame goes from `side` to its peer. -/
def pass (side : Side) : List (Side × Action) := [(side, .pollTransmit), (side.other, .recv 0)]

/-- The handshake, then the client opens a stream. -/
def opening : List (Side × Action) :=
  pass .server ++ pass .client ++ pass .server ++ [(.client, .call (.open .interactive))] ++
    pass .client

/-- The two ends of the stream then. -/
def openedClient : Stream := { Stream.new .interactive (512 * 1024) false with openSent := true }

def openedServer : Stream := .new .interactive (512 * 1024) true

/-- A message of the client is on the wire. -/
def sending : List (Side × Action) :=
  opening ++ [(.client, .call (.send 1 [1, 2, 3] .never)), (.client, .pollTransmit)]

/-- Two messages and the end of the stream, read by the server. -/
def conversation : List (Side × Action) :=
  opening ++ [(.client, .call (.send 1 [1, 2, 3] .never)), (.client, .call (.send 1 [] .never)),
    (.client, .call (.finish 1))] ++ pass .client ++ pass .client ++ pass .client ++
    [(.server, .call (.recvMsg 1)), (.server, .call (.recvMsg 1))]

end Sample

/-! ## Frames in flight -/

/-- The frames a node has put on the wire, as its peer will parse them. -/
def Node.inFlight (n : Node) : List Frame := n.wire.filterMap fun b => (Frame.parse b).toOption

/-- The frames of a node in its control queue or on the wire. -/
def Node.pending (n : Node) : List Frame := n.inFlight ++ n.conn.sched.control

/-- The payload bytes of the DATA frames of stream `id`. -/
def dataInFlight (id : StreamId) (fs : List Frame) : Nat :=
  ((fs.filter fun f => f.streamId = id ∧ f.frameType = .data).map (·.payload.length)).sum

theorem dataBytes_streamFrames {id : StreamId} {fs : List Frame}
    (h : ∀ f ∈ fs, f.frameType = .data → f.payload.length < 2 ^ 32) :
    dataBytes (streamFrames id fs) = dataInFlight id fs := by
  induction fs with
  | nil => rfl
  | cons f fs ih =>
    have ih := ih fun g hg => h g (List.mem_cons_of_mem _ hg)
    unfold dataInFlight at ih ⊢
    rw [streamFrames_cons, List.filter_cons]
    by_cases hid : f.streamId = id
    · by_cases ht : f.frameType = .data
      · have hlt := h f (List.mem_cons_self ..) ht
        have hlen : asU32 f.payload.length = f.payload.length := Nat.mod_eq_of_lt hlt
        simp [hid, ht, FrameType.isStream, Frame.dataLen, hlen, ih]
      · by_cases hs : f.frameType.isStream = true
        · simp [hid, ht, hs, Frame.dataLen, ih]
        · simp [hid, ht, hs, ih]
    · simp [hid, ih]

theorem dataInFlight_eq_zero {id : StreamId} {fs : List Frame}
    (h : ∀ f ∈ fs, f.frameType ≠ .data) : dataInFlight id fs = 0 := by
  have : (fs.filter fun f => f.streamId = id ∧ f.frameType = .data) = [] := by
    rw [List.filter_eq_nil_iff]
    intro f hf
    simp [h f hf]
  rw [dataInFlight, this]
  rfl

theorem streamFrames_eq_nil {id : StreamId} {fs : List Frame} (h : ∀ f ∈ fs, f.streamId ≠ id) :
    streamFrames id fs = [] := by
  rw [streamFrames, List.filter_eq_nil_iff]
  intro f hf
  simp [h f hf]

section
variable [ThirdParty] {P : Params} {a b : Node} {id : StreamId} {x y : Stream}

theorem Node.inFlight_eq {fs : List Frame} (hw : a.wire = fs.map Frame.encode)
    (G : (a.party fs).Good P) : a.inFlight = fs := by
  rw [Node.inFlight, hw, List.filterMap_map]
  have h : ∀ f ∈ fs, ((fun b => (Frame.parse b).toOption) ∘ Frame.encode) f = some f := by
    intro f hf
    simp [Frame.parse_encode (G.wire f hf).1, Except.toOption]
  rw [List.filterMap_congr h, List.filterMap_some]

/-- The direction from `a` to `b` of a stream both ends track. -/
theorem Joined.settled (J : Joined P a b) (hx : a.conn.streams.lookup id = some x)
    (hy : b.conn.streams.lookup id = some y) :
    ∃ h, View.run P b.conn.core.server (.live y.recvHalf)
        (streamFrames id a.pending ++ x.sendHalf.tail id) = some (.live h) ∧
      Settled x.sendHalf (grants id b.pending) (a.sent id) (b.taken id) h := by
  obtain ⟨fs, gs, hfs, hgs, D⟩ := J.duplex
  have hr : b.conn.core.Ready := D.right.endpoint.ready (Connection.core_streams hy)
  have hC := (D.link hr.isOpen).channel id
  have hview : (b.party gs).e.view id = .live y.recvHalf := Connection.view_of_lookup hy
  have hsend : (a.party fs).e.sendHalf id = some x.sendHalf :=
    Endpoint.sendHalf_some (Connection.core_streams hx)
  rw [hview, hsend] at hC
  obtain ⟨h, hrun, S⟩ := hC.settled rfl (by rintro ⟨⟩)
  have hout : ∀ {n : Node} {ws : List Frame}, n.wire = ws.map Frame.encode → (n.party ws).Good P →
      (n.party ws).outgoing = n.pending := fun hw G => by
    rw [Node.pending, Node.inFlight_eq hw G]
    rfl
  rw [hout hfs D.left] at hrun
  rw [hout hgs D.right] at S
  exact ⟨h, hrun, S⟩

theorem Joined.small (J : Joined P a b) :
    ∀ f ∈ a.inFlight, f.frameType = .data → f.payload.length < 2 ^ 32 := by
  obtain ⟨fs, gs, hfs, hgs, D⟩ := J.duplex
  rw [Node.inFlight_eq hfs D.left]
  exact fun f hf => (D.left.wire f hf).2

/-- The credit equation of one direction. -/
theorem Joined.credit (J : Joined P a b) (hx : a.conn.streams.lookup id = some x)
    (hy : b.conn.streams.lookup id = some y) (ho : y.remoteOpen = true) :
    P.initialWindow.toNat = x.send.credit + dataInFlight id a.inFlight + y.partialWire +
      (y.inbox.map (·.2)).sum + y.recv.consumedSinceUpdate + grants id b.pending := by
  obtain ⟨h, hrun, S⟩ := J.settled hx hy
  have hgood := (J.good.streams _ _ _ (Connection.core_streams hx)).2.2
  have hcons := (J.symm.good.streams _ _ _ (Connection.core_streams hy)).2.2.conserved
  have htotal : P.initialWindow.toNat = y.recv.remaining + y.partialWire +
    (y.inbox.map (·.2)).sum + y.recv.consumedSinceUpdate := hcons.total ho
  have hcredit : h.recv.remaining + x.outboxBytes = x.send.credit + grants id b.pending := S.credit
  have hext : h.recv.remaining + _ = y.recv.remaining := (View.extends_of_run hrun).remaining
  have hcontrol : dataBytes (streamFrames id a.conn.sched.control) = 0 := by
    have hno : ∀ f ∈ a.conn.sched.control, f.frameType ≠ .data := fun f hf =>
      (J.good.control f hf).2.1
    rw [dataBytes_streamFrames fun f hf ht => absurd ht (hno f hf), dataInFlight_eq_zero hno]
  have htail : dataBytes (x.sendHalf.tail id) = x.outboxBytes := by
    have hfin : dataBytes (if x.sendHalf.localOpen = false ∧ x.sendHalf.outbox ≠ [] then
        [finFrame id] else []) = 0 := by split <;> rfl
    rw [SendHalf.tail, dataBytes_append, dataBytes_dataFrames, hfin]
    exact hgood.bytes.symm
  rw [Node.pending, streamFrames_append, dataBytes_append, dataBytes_append, hcontrol, htail,
    dataBytes_streamFrames J.small] at hext
  omega

/-- The bookkeeping of an outbox. -/
theorem Joined.outbox (J : Joined P a b) (hx : a.conn.streams.lookup id = some x) :
    x.outboxBytes = (x.outbox.map List.length).sum ∧ x.outboxBytes ≤ x.send.credit := by
  have hgood := (J.good.streams _ _ _ (Connection.core_streams hx)).2.2
  have hbytes : x.outboxBytes = wireBytes x.outbox := hgood.bytes
  refine ⟨?_, hgood.outbox_le⟩
  rw [hbytes, wireBytes]
  congr 1
  exact List.map_congr_left fun p hp => Nat.mod_eq_of_lt (hgood.small p hp)

end

/-! ## No protocol error -/

/-- In every run of two honest endpoints, whatever frame comes next, `recv` accepts it. -/
theorem recv_honest_ok [ThirdParty] (S : Setup) {actions : List (Side × Action)} {s : System}
    (H : S.init.run actions = some s) (side : Side) (now : Instant) {bytes : Bytes}
    {rest : List Bytes} (hw : (s.node side.other).wire = bytes :: rest) :
    ((s.node side).conn.recv now bytes).2 = .ok () :=
  ((System.run_joined S H side).recv S.negotiated_inRange now hw).1

open Sample in
theorem recv_honest_ok_sending : ∃ s bytes, setup.init.run sending = some s ∧
    s.client.wire = [bytes] ∧ (s.server.conn.recv 0 bytes).2 = .ok () := by
  have h : (setup.init.run sending).map (fun s => s.client.wire) =
      some [[0, 0, 0, 1, 6, 0, 1, 2, 3]] := by decide +kernel
  obtain ⟨s, H, hw⟩ := Option.map_eq_some_iff.mp h
  exact ⟨s, _, H, hw, recv_honest_ok setup H .server 0 hw⟩

/-! ## Delivery -/

/-- What `recv_msg` returned is an initial part of what `send` accepted, and all of it once the
receiver has seen `Finished`. -/
theorem taken_isPrefix_sent [ThirdParty] (S : Setup) {actions : List (Side × Action)} {s : System}
    (H : S.init.run actions = some s) (side : Side) (id : StreamId) :
    (s.node side).taken id <+: (s.node side.other).sent id ∧
      (Event.finished id ∈ (s.node side).conn.events ++ (s.node side).polled →
        (s.node side).taken id = (s.node side.other).sent id) := by
  obtain ⟨fs, gs, _, _, D⟩ := (System.run_joined S H side).duplex
  refine ⟨D.backLedger.taken id, fun hfin => (D.backLedger.finished id ?_).1⟩
  rw [List.mem_append] at hfin ⊢
  rcases hfin with h | h
  · exact .inl (List.mem_filterMap.mpr ⟨_, h, rfl⟩)
  · exact .inr (List.mem_filterMap.mpr ⟨_, h, rfl⟩)

open Sample in
theorem taken_isPrefix_sent_conversation : ∃ s, setup.init.run conversation = some s ∧
    s.client.sent 1 = [[1, 2, 3], []] ∧ s.server.taken 1 = s.client.sent 1 := by
  have h : (setup.init.run conversation).map (fun s => (s.client.sent 1,
      decide (Event.finished 1 ∈ s.server.conn.events ++ s.server.polled))) =
      some ([[1, 2, 3], []], true) := by decide +kernel
  obtain ⟨s, H, hs⟩ := Option.map_eq_some_iff.mp h
  simp only [Prod.mk.injEq, decide_eq_true_eq] at hs
  exact ⟨s, H, hs.1, (taken_isPrefix_sent setup H .server 1).2 hs.2⟩

/-! ## Credit -/

/-- Credit is conserved on every stream direction both ends track and the receiver has not seen the
end of. -/
theorem credit_conserved [ThirdParty] (S : Setup) {actions : List (Side × Action)} {s : System}
    (H : S.init.run actions = some s) (side : Side) {id : StreamId} {x y : Stream}
    (hx : (s.node side).conn.streams.lookup id = some x)
    (hy : (s.node side.other).conn.streams.lookup id = some y) (ho : y.remoteOpen = true) :
    S.negotiated.initialWindow.toNat =
        x.send.credit + dataInFlight id (s.node side).inFlight + y.partialWire +
        (y.inbox.map (·.2)).sum + y.recv.consumedSinceUpdate +
        grants id (s.node side.other).pending ∧
      x.outboxBytes = (x.outbox.map List.length).sum ∧ x.outboxBytes ≤ x.send.credit :=
  have J := System.run_joined S H side
  ⟨J.credit hx hy ho, J.outbox hx⟩

open Sample in
theorem credit_conserved_sending : ∃ s x y, setup.init.run sending = some s ∧
    s.client.conn.streams.lookup 1 = some x ∧ s.server.conn.streams.lookup 1 = some y ∧
    dataInFlight 1 s.client.inFlight = 4 ∧
    setup.negotiated.initialWindow.toNat =
      x.send.credit + dataInFlight 1 s.client.inFlight + y.partialWire +
      (y.inbox.map (·.2)).sum + y.recv.consumedSinceUpdate + grants 1 s.server.pending := by
  have h : (setup.init.run sending).map (fun s => ((s.client.conn.streams.lookup 1).isSome,
      s.server.conn.streams.lookup 1, dataInFlight 1 s.client.inFlight)) =
      some (true, some openedServer, 4) := by decide +kernel
  obtain ⟨s, H, hs⟩ := Option.map_eq_some_iff.mp h
  simp only [Prod.mk.injEq] at hs
  obtain ⟨hx, hy, hd⟩ := hs
  obtain ⟨x, hx⟩ := Option.isSome_iff_exists.mp hx
  exact ⟨s, x, openedServer, H, hx, hy, hd, (credit_conserved setup H .client hx hy rfl).1⟩

/-! ## Blocked senders -/

theorem Connection.ready_of_core {c : Connection} (h : c.core.Ready) : c.ready = .ok () := by
  have hc : c.closed.isSome = false := h.isOpen
  have hs : c.hs = .done := h.done
  simp [ready, hc, hs]

/-- What `send` answers on a stream whose local half is open. -/
theorem Connection.send_result [ThirdParty] {c : Connection} {id : StreamId} {s : Stream}
    (hr : c.core.Ready) (hl : c.streams.lookup id = some s) (ho : s.localOpen = true) {msg : Bytes}
    (hm : msg.length ≤ c.paramsInForce.maxMessage.toNat) (compress : Compress) :
    (c.send id msg compress).2 =
      if worstCase c.paramsInForce.maxFrame.toNat msg ≤ s.freeCredit then .ok ()
      else .error .wouldBlock := by
  unfold send
  simp only [ready_of_core hr, hl, ho, if_neg (Nat.not_lt.mpr hm)]
  rw [if_neg (by simp)]
  split
  · rename_i hlt
    rw [if_neg (Nat.not_le.mpr hlt)]
  · rename_i hle
    rw [if_pos (Nat.not_lt.mp hle)]
    split
    · rfl
    · split <;> rfl

/-- A stream open in both directions on which nothing is queued, in flight or left to consume. -/
structure Quiescent (a b : Node) (id : StreamId) (x y : Stream) : Prop where
  sender : a.conn.streams.lookup id = some x
  receiver : b.conn.streams.lookup id = some y
  senderOpen : x.localOpen = true ∧ x.remoteOpen = true
  receiverOpen : y.localOpen = true ∧ y.remoteOpen = true
  outboxes : x.outbox = [] ∧ y.outbox = []
  quiet : ∀ f ∈ a.pending ++ b.pending, f.streamId ≠ id
  consumed : y.inbox = []

theorem Sample.opening_quiescent : ∃ s, setup.init.run opening = some s ∧
    Quiescent (s.node .client) (s.node .server) 1 openedClient openedServer := by
  have h : (setup.init.run opening).map (fun s => (s.client.conn.streams.lookup 1,
      s.server.conn.streams.lookup 1, s.client.pending ++ s.server.pending)) =
      some (some openedClient, some openedServer, []) := by decide +kernel
  obtain ⟨s, H, hs⟩ := Option.map_eq_some_iff.mp h
  simp only [Prod.mk.injEq] at hs
  obtain ⟨hx, hy, hp⟩ := hs
  refine ⟨s, H, hx, hy, ⟨rfl, rfl⟩, ⟨rfl, rfl⟩, ⟨rfl, rfl⟩, ?_, rfl⟩
  change ∀ f ∈ s.client.pending ++ s.server.pending, _
  rw [hp]
  simp

theorem Joined.quiescent_credit [ThirdParty] {P : Params} {a b : Node} {id : StreamId}
    {x y : Stream} (J : Joined P a b) (Q : Quiescent a b id x y) :
    x.send.credit + y.recv.consumedSinceUpdate = P.initialWindow.toNat ∧ x.outboxBytes = 0 := by
  have hcredit := J.credit Q.sender Q.receiver Q.receiverOpen.2
  have hout := (J.outbox Q.sender).1
  obtain ⟨h, hrun, S⟩ := J.settled Q.sender Q.receiver
  have hquiet : ∀ f ∈ a.pending, f.streamId ≠ id := fun f hf => Q.quiet f (List.mem_append_left _ hf)
  have hdata : dataInFlight id a.inFlight = 0 := by
    rw [← dataBytes_streamFrames J.small, streamFrames_eq_nil fun f hf =>
      hquiet f (List.mem_append_left _ hf)]
    rfl
  have hgrants : grants id b.pending = 0 := grants_eq_zero fun f hf _ =>
    Q.quiet f (List.mem_append_right _ hf)
  have htail : x.sendHalf.tail id = [] := by
    rw [SendHalf.tail_of_open Q.senderOpen.1, show x.sendHalf.outbox = [] from Q.outboxes.1]
    rfl
  rw [streamFrames_eq_nil hquiet, htail] at hrun
  cases hrun
  have hpartial : y.partialWire = 0 := S.partialWire
  rw [Q.outboxes.1] at hout
  rw [hdata, hgrants, hpartial, Q.consumed] at hcredit
  exact ⟨by simpa using hcredit.symm, by simpa using hout⟩

/-- On a quiescent stream the messages `send` accepts are those the window holds next to what the
receiver consumed and has not returned yet. -/
theorem send_ok_iff_of_quiescent [ThirdParty] (S : Setup) {actions : List (Side × Action)}
    {s : System} (H : S.init.run actions = some s) (side : Side) {id : StreamId} {x y : Stream}
    (Q : Quiescent (s.node side) (s.node side.other) id x y) {msg : Bytes}
    (hm : msg.length ≤ S.negotiated.maxMessage.toNat) (compress : Compress) :
    ((s.node side).conn.send id msg compress).2 = .ok () ↔
      msg.length + max (divCeil msg.length (S.negotiated.maxFrame.toNat - 1)) 1 +
        y.recv.consumedSinceUpdate ≤ S.negotiated.initialWindow.toNat := by
  have J := System.run_joined S H side
  obtain ⟨hcredit, hout⟩ := J.quiescent_credit Q
  have hr : (s.node side).conn.core.Ready := J.good.ready (Connection.core_streams Q.sender)
  have hparams := J.wf.paramsInForce hr.done
  rw [Connection.send_result hr Q.sender Q.senderOpen.1 (hparams ▸ hm), hparams,
    Connection.worstCase, Stream.freeCredit, hout]
  split
  · exact iff_of_true rfl (by omega)
  · exact iff_of_false (by rintro ⟨⟩) (by omega)

open Sample in
theorem send_ok_iff_of_quiescent_opening : ∃ s, setup.init.run opening = some s ∧
    Quiescent (s.node .client) (s.node .server) 1 openedClient openedServer ∧
    ((s.node .client).conn.send 1 [1, 2, 3] .never).2 = .ok () := by
  obtain ⟨s, H, Q⟩ := opening_quiescent
  exact ⟨s, H, Q, (send_ok_iff_of_quiescent setup H .client Q (by decide) .never).mpr (by decide)⟩

open Sample in
/-- A message of 600 KiB, which `max_message` allows, on a stream just opened. -/
theorem send_blocks_of_quiescent : ∃ s msg, setup.init.run opening = some s ∧
    Quiescent (s.node .client) (s.node .server) 1 openedClient openedServer ∧
    msg.length ≤ setup.negotiated.maxMessage.toNat ∧
    ((s.node .client).conn.send 1 msg .never).2 = .error .wouldBlock := by
  obtain ⟨s, H, Q⟩ := opening_quiescent
  have hm : (List.replicate 614400 (0 : UInt8)).length ≤ setup.negotiated.maxMessage.toNat := by
    rw [List.length_replicate]
    decide
  refine ⟨s, List.replicate 614400 0, H, Q, hm, ?_⟩
  have J := System.run_joined setup H .client
  have hr : (s.node .client).conn.core.Ready := J.good.ready (Connection.core_streams Q.sender)
  have hparams := J.wf.paramsInForce hr.done
  rw [Connection.send_result hr Q.sender rfl (hparams ▸ hm), hparams, Connection.worstCase,
    List.length_replicate, if_neg (by decide)]

end TunnelWeaver.Mux
