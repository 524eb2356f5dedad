import TunnelWeaver.Mux.Synced

/-! Closing is terminal. Whatever closes a connection does so through `close_internal`, which leaves
no stream, no control frame and no deadline behind; from then on events and frames only leave, and
a GOAWAY, if there is one, is the only frame left. -/

namespace TunnelWeaver.Mux

/-- The frames after which the peer reads nothing more. -/
def FrameType.isFarewell : FrameType → Bool
  | .goaway | .reject | .hello => true
  | _ => false

namespace Connection

variable {c c' : Connection} {id : StreamId} {f : Frame}

/-! ## What leaves a connection open -/

@[simp] theorem closed_pushEvent (ev : Event) : (c.pushEvent ev).closed = c.closed := rfl

@[simp] theorem closed_dropStream : (c.dropStream id).closed = c.closed := by
  unfold dropStream
  split <;> rfl

@[simp] theorem closed_maybeForget : (c.maybeForget id).closed = c.closed := by
  unfold maybeForget
  split
  · rfl
  · split
    · exact closed_dropStream
    · rfl

@[simp] theorem closed_finishedStream : (c.finishedStream id).closed = c.closed :=
  closed_maybeForget

@[simp] theorem closed_report (a b : Nat) : (c.report id a b).closed = c.closed := by
  obtain ⟨r, h⟩ := report_eq (c := c) id a b
  rw [h]

@[simp] theorem closed_rearmReverify (now : Instant) : (c.rearmReverify now).closed = c.closed := by
  unfold rearmReverify
  split <;> rfl

variable [ThirdParty]

/-- `c'` is the outcome of `close_internal` on an open connection. -/
def Closes (sendGoaway : Bool) (c' : Connection) : Prop :=
  ∃ (c₁ : Connection) (reason : CloseReason),
    c₁.closed = none ∧ c' = c₁.closeInternal reason sendGoaway

theorem closes_of (h : c.closed = none) (reason : CloseReason) (sendGoaway : Bool) :
    Closes sendGoaway (c.closeInternal reason sendGoaway) := ⟨c, reason, h, rfl⟩

theorem closed_closeInternal (h : c.closed = none) (reason : CloseReason) (sendGoaway : Bool) :
    (c.closeInternal reason sendGoaway).closed = some reason := by
  unfold closeInternal
  rw [if_neg (by simp [h])]
  rfl

/-! ## What closes it -/

theorem timeoutLoop_closes {now : Instant} {stillValid : Nat → KeyId → Bool} {fuel : Nat}
    (hc : c.closed = none) (H : timeoutLoop now stillValid fuel c = some c') :
    c'.closed = none ∨ Closes true c' := by
  -- a closed connection ends the loop, so the last round decides
  have hstop : ∀ {fuel c₁}, timeoutLoop now stillValid fuel c₁ = some c' → Closes true c₁ →
      c'.closed = none ∨ Closes true c' := by
    rintro fuel c₁ H ⟨c₀, reason, h₀, rfl⟩
    cases fuel with
    | zero => cases H
    | succ fuel =>
      unfold timeoutLoop at H
      rw [if_pos (by simp [closed_closeInternal h₀])] at H
      cases H
      exact .inr ⟨c₀, reason, h₀, rfl⟩
  induction fuel generalizing c with
  | zero => cases H
  | succ fuel ih =>
    unfold timeoutLoop at H
    split at H
    · cases H
      exact .inl hc
    split at H
    · cases H
      exact .inl hc
    · exact hstop H (closes_of hc _ _)
    · exact hstop H (closes_of hc _ _)
    · unfold reverify at H
      dsimp only at H
      split at H
      · exact ih (by simpa using hc) H
      · exact hstop H (closes_of (by simpa using hc) _ _)
    · exact ih (c := c.sendPing) hc H

/-- What a handler of an open connection does: an error leaves it open, for the caller to close. -/
def Fate (f : Frame) (o : Outcome) : Prop :=
  match o.2 with
  | .ok () => o.1.closed = none ∨ Closes true o.1 ∨ Closes false o.1 ∧ f.frameType.isFarewell = true
  | .error _ => o.1.closed = none

theorem Fate.decoding {α : Type} {codec : Codec α} {k : α → Outcome} (hc : c.closed = none)
    (hk : ∀ a, Fate f (k a)) : Fate f (c.decoding codec f k) := by
  unfold Connection.decoding
  split
  · exact hc
  · exact hk _

theorem Fate.afterAuth {k : Connection → Outcome} (hc : c.closed = none) (hk : Fate f (k c)) :
    Fate f (c.afterAuth k) := by
  unfold Connection.afterAuth
  split
  · exact hk
  · exact hc

theorem Fate.withStream {k : Stream → Outcome} (hc : c.closed = none) (hk : ∀ s, Fate f (k s)) :
    Fate f (c.withStream id k) := by
  unfold Connection.withStream
  split
  · exact hc
  · exact .inl hc
  · exact hk _

theorem onChallenge_fate (hc : c.closed = none) : Fate f (c.onChallenge f) := by
  unfold onChallenge
  split
  · exact hc
  split
  · exact hc
  · refine .decoding hc fun ch => ?_
    dsimp only
    split
    · exact .inr (.inl (closes_of hc _ _))
    · exact .inl hc

theorem rejectHandshake_fate (hc : c.closed = none) (ht : f.frameType = .hello) (code : RejectCode)
    (message : String) : Fate f (c.rejectHandshake code message, .ok ()) :=
  .inr (.inr ⟨closes_of (c := c.pushPriority _) hc _ _, by rw [ht]; rfl⟩)

theorem onHello_fate (hc : c.closed = none) (ht : f.frameType = .hello) (now : Instant) :
    Fate f (c.onHello now f) := by
  unfold onHello
  split
  · exact hc
  split
  · exact hc
  refine .decoding hc fun hello => ?_
  split
  · exact rejectHandshake_fate hc ht _ _
  split
  · exact rejectHandshake_fate hc ht _ _
  dsimp only
  split
  · exact rejectHandshake_fate hc ht _ _
  · exact .inl hc

theorem onWelcome_fate (hc : c.closed = none) (now : Instant) : Fate f (c.onWelcome now f) := by
  unfold onWelcome
  split
  · exact hc
  refine .decoding hc fun w => ?_
  split
  · exact hc
  split
  · exact hc
  · exact .inl hc

theorem onReject_fate (hc : c.closed = none) (ht : f.frameType = .reject) :
    Fate f (c.onReject f) := by
  unfold onReject
  split
  · exact hc
  · refine .decoding hc fun r => ?_
    exact .inr (.inr ⟨closes_of (c := c.pushEvent _) hc _ _, by rw [ht]; rfl⟩)

theorem onData_fate (hc : c.closed = none) : Fate f (c.onData f) := by
  unfold onData
  dsimp only
  split
  · exact hc
  refine .withStream hc fun s => ?_
  split
  · exact hc
  split
  · exact hc
  rename_i recv _
  have hrep : ((c.setStream f.streamId { s with recv }).report f.streamId
      (asU32 f.payload.length) 0).closed = none := closed_report .. |>.trans hc
  split
  · exact hrep
  · refine .inl ?_
    dsimp only
    split <;> exact hrep

theorem onFin_fate (hc : c.closed = none) : Fate f (c.onFin f) := by
  unfold onFin
  dsimp only
  refine .withStream hc fun s => ?_
  split
  · exact hc
  split
  · exact hc
  · refine .inl ?_
    dsimp only
    split
    · exact closed_finishedStream.trans hc
    · exact hc

theorem dispatch_fate (hc : c.closed = none) (now : Instant) : Fate f (c.dispatch now f) := by
  unfold dispatch
  split
  · cases ht : f.frameType with
    | challenge => exact onChallenge_fate hc
    | hello => exact onHello_fate hc ht now
    | welcome => exact onWelcome_fate hc now
    | reject => exact onReject_fate hc ht
    | goaway =>
      refine .decoding hc fun g => .inr (.inr ⟨closes_of hc _ _, ?_⟩)
      rw [ht]
      rfl
    | ping => exact .afterAuth hc (.decoding hc fun p => .inl hc)
    | pong =>
      refine .afterAuth hc (.decoding hc fun p => .inl ?_)
      dsimp only
      split <;> exact hc
    | «open» | data | fin | rst | windowUpdate => exact hc
  · refine .afterAuth hc ?_
    cases f.frameType with
    | «open» =>
      unfold onStreamOpen
      dsimp only
      split
      · exact hc
      refine .decoding hc fun cls => ?_
      split
      · exact hc
      · exact .inl hc
    | data => exact onData_fate hc
    | fin => exact onFin_fate hc
    | rst =>
      refine .decoding hc fun rst => .withStream hc fun s => .inl ?_
      exact closed_dropStream.trans hc
    | windowUpdate =>
      refine .decoding hc fun wu => .withStream hc fun s => ?_
      dsimp only
      split <;> exact .inl hc
    | challenge | hello | welcome | reject | ping | pong | goaway => exact hc

/-- Bytes that close a connection without GOAWAY are a farewell of the peer, or its HELLO. -/
theorem recv_closes (hc : c.closed = none) (now : Instant) (bytes : Bytes) :
    (c.recv now bytes).1.closed = none ∨ Closes true (c.recv now bytes).1 ∨
    Closes false (c.recv now bytes).1 ∧ (c.recv now bytes).2 = .ok () ∧
      ∃ f, Frame.parse bytes = .ok f ∧ f.frameType.isFarewell = true := by
  unfold recv
  dsimp only
  rw [if_neg (by simpa [observe] using hc)]
  split
  · exact .inr (.inl (closes_of (c := c.observe now) hc _ _))
  · rename_i f hf
    unfold recvFrame
    dsimp only
    generalize hc₁ : ({ c.observe now with
      timers := (c.observe now).timers.onRecv (c.observe now).timers.lastNow } : Connection) = c₁
    have hopen : c₁.closed = none := by
      subst hc₁
      exact hc
    have h := dispatch_fate (f := f) hopen (c.observe now).timers.lastNow
    unfold Fate at h
    split
    · rename_i c₂ heq
      rw [heq] at h
      rcases h with h | h | ⟨h, hb⟩
      · exact .inl h
      · exact .inr (.inl h)
      · exact .inr (.inr ⟨h, rfl, f, hf, hb⟩)
    · rename_i c₂ e heq
      rw [heq] at h
      exact .inr (.inl (closes_of h _ _))

/-! ## A closed connection -/

def goawayFrame (reason : CloseReason) : Frame := ⟨0, .goaway, ThirdParty.goaway.encode reason⟩

/-- What is left of a connection closed for `reason`. -/
structure Shut (reason : CloseReason) (c : Connection) : Prop where
  synced : Synced c
  closed : c.closed = some reason
  control : c.sched.control = []
  streams : ∀ id, c.streams.lookup id = none

theorem shut_closeInternal {reason : CloseReason} {sendGoaway : Bool} (hc : c.closed = none)
    (S : Synced (c.closeInternal reason sendGoaway)) :
    Shut reason (c.closeInternal reason sendGoaway) := by
  have hcore : (c.closeInternal reason sendGoaway).core = _ := core_closeInternal hc
  refine ⟨S, closed_closeInternal hc _ _, ?_, fun id => ?_⟩
  · exact congrArg Endpoint.control hcore
  · have := congrArg (fun e => e.streams id) hcore
    simpa [core, Endpoint.shut] using this

theorem priorityOut_closeInternal (hc : c.closed = none) (reason : CloseReason) :
    (c.closeInternal reason true).priorityOut = [goawayFrame reason] :=
  congrArg Endpoint.prio (core_closeInternal hc : (c.closeInternal reason true).core = _)

section
variable {reason : CloseReason}

omit [ThirdParty] in
theorem Shut.of (S : Shut reason c) (hs : c'.streams = c.streams) (ht : c'.sched = c.sched)
    (hc : c'.closed = c.closed) : Shut reason c' :=
  ⟨S.synced.of hs ht, hc.trans S.closed, by rw [ht]; exact S.control,
    by rw [hs]; exact S.streams⟩

omit [ThirdParty] in
theorem Shut.ready (S : Shut reason c) : c.ready = .error .closed := by
  simp [Connection.ready, S.closed]

omit [ThirdParty] in
theorem Shut.hasBacklog (S : Shut reason c) : c.sched.hasBacklog = false := by
  refine Bool.eq_false_iff.mpr fun h => ?_
  rcases (S.synced.sched.hasBacklog_iff S.synced.control).mp h with h | ⟨cls, id, _, h⟩
  · exact h S.control
  · obtain ⟨s, hs, _⟩ := S.synced.toLinked.queued_iff h
    rw [S.streams id] at hs
    cases hs

omit [ThirdParty] in
theorem Shut.wantsTransmit (S : Shut reason c) : c.wantsTransmit = !c.priorityOut.isEmpty := by
  simp [Connection.wantsTransmit, S.hasBacklog]

theorem Shut.recv (S : Shut reason c) (now : Instant) (bytes : Bytes) :
    c.recv now bytes = (c.observe now, .ok ()) := by
  unfold Connection.recv
  dsimp only
  rw [if_pos (by simp [observe, S.closed])]

theorem Shut.closeInternal (S : Shut reason c) (r : CloseReason) (sendGoaway : Bool) :
    c.closeInternal r sendGoaway = c := by
  unfold Connection.closeInternal
  rw [if_pos (by simp [S.closed])]

theorem Shut.handleTimeout (S : Shut reason c) {now : Instant} {stillValid : Nat → KeyId → Bool}
    {fuel : Nat} (H : c.handleTimeout now stillValid fuel = some c') : c' = c.observe now := by
  unfold Connection.handleTimeout at H
  cases fuel with
  | zero => cases H
  | succ fuel =>
    unfold timeoutLoop at H
    rw [if_pos (by simp [observe, S.closed])] at H
    exact (Option.some.inj H).symm

omit [ThirdParty] in
/-- Only the priority queue is left to transmit. -/
theorem Shut.pollTransmit (S : Shut reason c) : Shut reason c.pollTransmit.1 ∧
    c.pollTransmit.1.events = c.events ∧
    ∃ sent, c.priorityOut = sent ++ c.pollTransmit.1.priorityOut ∧
      c.pollTransmit.2.toList = sent.map Frame.encode := by
  rcases S.synced.pollTransmit_cases with ⟨f, rest, hp, h⟩ | ⟨hp, _, h⟩ | ⟨_, f, rest, hc, _⟩ |
    ⟨_, id, s, _, _, hs, _⟩
  · rw [h, hp]
    exact ⟨S.of rfl rfl rfl, rfl, [f], rfl, rfl⟩
  · rw [h]
    refine ⟨⟨SyncedBut.pick S.synced, S.closed, ?_, S.streams⟩, rfl, [], rfl, rfl⟩
    simpa using S.control
  · rw [S.control] at hc
    cases hc
  · rw [S.streams id] at hs
    cases hs

end

end Connection

/-! ## Runs -/

namespace Node

open Connection (Shut goawayFrame)

variable [ThirdParty] {n n' m : Node} {reason : CloseReason} {x : Input}

/-- `m` is what became of `n` after its connection closed for `reason`: events and frames left,
none came in. -/
structure After (reason : CloseReason) (n m : Node) : Prop where
  shut : m.conn.Shut reason
  events : m.polled ++ m.conn.events = n.polled ++ n.conn.events
  frames : ∃ sent, n.conn.priorityOut = sent ++ m.conn.priorityOut ∧
    m.wire = n.wire ++ sent.map Frame.encode

theorem After.call (A : After reason n m) (k : Call) : After reason n (m.call k) := by
  have hready := A.shut.ready
  have hsame : ∀ {c : Connection}, c = m.conn → After reason n { m with conn := c } := by
    rintro _ rfl
    exact A
  cases k with
  | «open» cls => exact hsame (by simp [Connection.open, hready])
  | send id msg compress =>
    have h : m.conn.send id msg compress = (m.conn, .error .closed) := by
      simp [Connection.send, hready]
    simp only [Node.call, h]
    exact A
  | recvMsg id =>
    have h : m.conn.recvMsg id = (m.conn, .error .closed) := by simp [Connection.recvMsg, hready]
    simp only [Node.call, h]
    exact A
  | finish id => exact hsame (by simp [Connection.finish, hready])
  | reset id code => exact hsame (by simp [Connection.reset, hready])
  | setClass id cls => exact hsame (by simp [Connection.setClass, hready])
  | close r => exact hsame (A.shut.closeInternal _ _)
  | setBytesSink => exact ⟨A.shut.of rfl rfl rfl, A.events, A.frames⟩
  | pollEvent =>
    have hev := A.events
    cases h : m.conn.events with
    | nil =>
      simp only [Node.call, Connection.pollEvent, h, Option.toList_none, List.append_nil]
      exact A
    | cons e rest =>
      rw [h] at hev
      simp only [Node.call, Connection.pollEvent, h, Option.toList_some]
      exact ⟨A.shut.of rfl rfl rfl, by simpa using hev, A.frames⟩

theorem After.face {m' : Node} (A : After reason n m) (H : m.face x = some m') :
    After reason n m' := by
  cases x with
  | call k =>
    cases H
    exact A.call k
  | handleTimeout now stillValid fuel =>
    obtain ⟨conn, hconn, rfl⟩ := Option.map_eq_some_iff.mp H
    rw [A.shut.handleTimeout hconn]
    exact ⟨A.shut.of rfl rfl rfl, A.events, A.frames⟩
  | pollTransmit =>
    cases H
    obtain ⟨hshut, hev, hfr⟩ := A.shut.pollTransmit
    refine ⟨hshut, ?_, ?_⟩
    · dsimp only
      rw [hev]
      exact A.events
    · obtain ⟨sent, hp, hw⟩ := A.frames
      obtain ⟨sent', hp', hw'⟩ := hfr
      exact ⟨sent ++ sent', by rw [hp, hp', List.append_assoc], by simp [hw, hw']⟩
  | recv now bytes =>
    cases H
    rw [A.shut.recv]
    exact ⟨A.shut.of rfl rfl rfl, A.events, A.frames⟩

theorem After.run {inputs : List Input} (A : After reason n n')
    (H : Automaton.run Node.face n' inputs = some m) : After reason n m :=
  Automaton.run_invariant (p := fun _ => True) (fun A _ H => A.face H) (fun _ _ => trivial) A H

end Node

section
variable [ThirdParty]

/-- The peer ends the connection: its GOAWAY or REJECT is read, or its HELLO refused. -/
def Input.peerLeft (c : Connection) : Input → Prop
  | .recv now bytes => (c.recv now bytes).2 = .ok () ∧
      ∃ f, Frame.parse bytes = .ok f ∧ f.frameType.isFarewell = true
  | _ => False

end

namespace Node

open Connection (Shut goawayFrame Closes)

variable [ThirdParty] {n n' m : Node} {reason : CloseReason} {x : Input}

theorem call_closes (ho : n.conn.closed = none) (k : Call) :
    (n.call k).conn.closed = none ∨ Closes true (n.call k).conn := by
  cases k with
  | «open» cls =>
    refine .inl ?_
    simp only [Node.call, Connection.open]
    split
    · exact ho
    split
    · exact ho
    · split <;> exact ho
  | send id msg compress =>
    refine .inl ?_
    have h : (n.conn.send id msg compress).1.closed = none := by
      unfold Connection.send
      split
      · exact ho
      dsimp only
      split
      · exact ho
      split
      · exact ho
      split
      · exact ho
      split
      · exact ho
      rename_i s _ _ _
      generalize Connection.payloads _ _ _ = out
      generalize Connection.demote _ _ _ = cls
      obtain ⟨r, hr⟩ := Connection.foldl_report_eq
        (c := n.conn.setStream id (s.pushOutbox cls out msg.length)) id out
      rw [hr]
      split
      · exact ho
      · split <;> exact ho
    dsimp only [Node.call]
    split <;> exact h
  | recvMsg id =>
    refine .inl ?_
    have h : (n.conn.recvMsg id).1.closed = none := by
      unfold Connection.recvMsg
      split
      · exact ho
      split
      · exact ho
      split
      · exact ho
      split
      · dsimp only
        split <;> exact ho
      · dsimp only
        split
        · exact Connection.closed_finishedStream.trans ho
        · exact ho
    dsimp only [Node.call]
    split <;> exact h
  | finish id =>
    refine .inl ?_
    simp only [Node.call, Connection.finish]
    split
    · exact ho
    split
    · exact ho
    split
    · exact ho
    · dsimp only
      split
      · exact Connection.closed_maybeForget.trans ho
      · exact ho
  | reset id code =>
    refine .inl ?_
    simp only [Node.call, Connection.reset]
    split
    · exact ho
    split
    · exact ho
    · exact Connection.closed_dropStream.trans ho
  | setClass id cls =>
    refine .inl ?_
    simp only [Node.call, Connection.setClass]
    split
    · exact ho
    split
    · exact ho
    split
    · exact ho
    split <;> exact ho
  | close r => exact .inr (Connection.closes_of ho r true)
  | pollEvent =>
    refine .inl ?_
    simp only [Node.call, Connection.pollEvent]
    split <;> exact ho
  | setBytesSink => exact .inl ho

/-- Every input leaves an open connection open, or closes it, with GOAWAY unless the peer left. -/
theorem face_closes (S : n.conn.Synced) (ho : n.conn.closed = none) (H : n.face x = some n') :
    n'.conn.closed = none ∨ Closes true n'.conn ∨ Closes false n'.conn ∧ x.peerLeft n.conn := by
  cases x with
  | call k =>
    cases H
    rcases call_closes ho k with h | h
    · exact .inl h
    · exact .inr (.inl h)
  | handleTimeout now stillValid fuel =>
    obtain ⟨conn, hconn, rfl⟩ := Option.map_eq_some_iff.mp H
    rcases Connection.timeoutLoop_closes (c := n.conn.observe now) ho hconn with h | h
    · exact .inl h
    · exact .inr (.inl h)
  | pollTransmit =>
    cases H
    refine .inl ?_
    dsimp only
    rcases S.pollTransmit_cases with ⟨f, rest, _, h⟩ | ⟨_, _, h⟩ | ⟨_, f, rest, _, _, h⟩ |
      ⟨_, id, s, payload, rest, _, _, _, h⟩ <;> rw [h]
    · exact ho
    · exact ho
    · have hopen : ∀ c : Connection, (c.onOpenSent f.streamId).closed = c.closed := fun c => by
        unfold Connection.onOpenSent
        split
        · rfl
        · dsimp only
          split <;> rfl
      unfold Connection.emitControl
      dsimp only
      split
      · exact (hopen _).trans ho
      · exact ho
    · unfold Connection.emitData
      dsimp only
      refine Connection.closed_maybeForget.trans ?_
      split <;> exact ho
  | recv now bytes =>
    cases H
    exact Connection.recv_closes ho now bytes

/-- The step that closes a connection shuts it, with nothing but GOAWAY to send unless the peer
left first. -/
theorem face_shut (S : n.conn.Synced) (hs : n.conn.Sound) (ho : n.conn.closed = none)
    (H : n.face x = some n') (hc : n'.conn.closed = some reason) :
    n'.conn.Shut reason ∧ (¬x.peerLeft n.conn → n'.conn.priorityOut = [goawayFrame reason]) := by
  have S' := face_synced hs H S
  have hshut : ∀ {b}, Closes b n'.conn → n'.conn.Shut reason ∧
      (b = true → n'.conn.priorityOut = [goawayFrame reason]) := by
    rintro b ⟨c₁, r, h₁, heq⟩
    rw [heq] at hc S' ⊢
    rw [Connection.closed_closeInternal h₁, Option.some.injEq] at hc
    subst hc
    refine ⟨Connection.shut_closeInternal h₁ S', ?_⟩
    rintro rfl
    exact Connection.priorityOut_closeInternal h₁ r
  rcases face_closes S ho H with h | h | ⟨h, hleft⟩
  · rw [h] at hc
    cases hc
  · exact ⟨(hshut h).1, fun _ => (hshut h).2 rfl⟩
  · exact ⟨(hshut h).1, fun hn => absurd hleft hn⟩

end Node

/-! ## Closing is terminal -/

open Connection (goawayFrame)

section
variable [ThirdParty]

/-- A connection that closed for `reason` in state `n` and has come to `m`: every stream method
fails, bytes from the peer only move the clock, no deadline is armed, and neither events nor frames
are queued any more. -/
structure Terminal (reason : CloseReason) (n m : Node) : Prop where
  closed : m.conn.closed = some reason
  open' : ∀ cls, m.conn.open cls = (m.conn, .error .closed)
  send : ∀ id msg compress, m.conn.send id msg compress = (m.conn, .error .closed)
  finish : ∀ id, m.conn.finish id = (m.conn, .error .closed)
  reset : ∀ id code, m.conn.reset id code = (m.conn, .error .closed)
  recvMsg : ∀ id, m.conn.recvMsg id = (m.conn, .error .closed)
  setClass : ∀ id cls, m.conn.setClass id cls = (m.conn, .error .closed)
  recv : ∀ now bytes, m.conn.recv now bytes = (m.conn.observe now, .ok ())
  nextTimeout : m.conn.nextTimeout = none
  events : m.polled ++ m.conn.events = n.polled ++ n.conn.events
  frames : ∃ sent, n.conn.priorityOut = sent ++ m.conn.priorityOut ∧
    m.wire = n.wire ++ sent.map Frame.encode
  control : m.conn.sched.control = []
  streams : ∀ id, m.conn.streams.lookup id = none
  wants : m.conn.wantsTransmit = !m.conn.priorityOut.isEmpty

theorem Node.After.terminal {reason : CloseReason} {n m : Node} (A : Node.After reason n m) :
    Terminal reason n m := by
  have hready := A.shut.ready
  exact {
    closed := A.shut.closed
    open' := fun _ => by simp [Connection.open, hready]
    send := fun _ _ _ => by simp [Connection.send, hready]
    finish := fun _ => by simp [Connection.finish, hready]
    reset := fun _ _ => by simp [Connection.reset, hready]
    recvMsg := fun _ => by simp [Connection.recvMsg, hready]
    setClass := fun _ _ => by simp [Connection.setClass, hready]
    recv := A.shut.recv
    nextTimeout := by simp [Connection.nextTimeout, A.shut.closed]
    events := A.events
    frames := A.frames
    control := A.shut.control
    streams := A.shut.streams
    wants := A.shut.wantsTransmit }

/-- However a connection closes, closing is terminal; and unless the peer left first, exactly one
frame is sent from then on, a GOAWAY with the first reason. -/
theorem closing_terminal {cfg : Config} {now : Instant} {inputs rest : List Input} {n n' m : Node}
    {x : Input} {reason : CloseReason} (H : Node.exposed cfg now inputs = some n)
    (ho : n.conn.closed = none) (hx : n.face x = some n') (hc : n'.conn.closed = some reason)
    (hm : Automaton.run Node.face n' rest = some m) :
    Terminal reason n' m ∧ (¬x.peerLeft n.conn →
      m.wire = n'.wire ∧ m.conn.wantsTransmit = true ∧
          m.conn.pollTransmit.2 = some (goawayFrame reason).encode ∨
        m.wire = n'.wire ++ [(goawayFrame reason).encode] ∧ m.conn.wantsTransmit = false) := by
  obtain ⟨hshut, hgoaway⟩ := Node.face_shut (Node.exposed_synced H) (Node.exposed_sound H) ho hx hc
  have A : Node.After reason n' m := Node.After.run ⟨hshut, rfl, [], rfl, by simp⟩ hm
  refine ⟨A.terminal, fun hlocal => ?_⟩
  obtain ⟨sent, hp, hw⟩ := A.frames
  rw [hgoaway hlocal] at hp
  cases sent with
  | nil =>
    have hp : m.conn.priorityOut = [goawayFrame reason] := hp.symm
    refine .inl ⟨by simpa using hw, ?_, by simp [Connection.pollTransmit, hp]⟩
    rw [A.shut.wantsTransmit, hp]
    rfl
  | cons f l =>
    rw [List.cons_append, List.cons.injEq, eq_comm (a := []), List.append_eq_nil_iff] at hp
    obtain ⟨rfl, rfl, hp⟩ := hp
    refine .inr ⟨hw, ?_⟩
    rw [A.shut.wantsTransmit, hp]
    rfl

end

open scoped Sample in
/-- A busy server closes: of all that was queued only GOAWAY goes out. -/
theorem closing_terminal_busy : ∃ n n' m reason,
    Node.exposed Sample.setup.server 0 Sample.busy = some n ∧
    n.face (.call (.close (.new .shutdown))) = some n' ∧
    Automaton.run Node.face n' [.pollTransmit, .recv 0 Sample.helloFrame.encode] = some m ∧
    Terminal reason n' m ∧ m.wire = n'.wire ++ [(goawayFrame reason).encode] := by
  have h : (Node.exposed Sample.setup.server 0 Sample.busy).any (fun n => n.conn.closed.isNone &&
    (n.face (.call (.close (.new .shutdown)))).any fun n' =>
      decide (n'.conn.closed = some (.new .shutdown)) &&
      (Automaton.run Node.face n' [.pollTransmit, .recv 0 Sample.helloFrame.encode]).any fun m =>
        !m.conn.wantsTransmit) = true := by decide +kernel
  obtain ⟨n, hn, h⟩ := (Option.any_eq_true _ _).mp h
  rw [Bool.and_eq_true, Option.isNone_iff_eq_none] at h
  obtain ⟨n', hn', h'⟩ := (Option.any_eq_true _ _).mp h.2
  rw [Bool.and_eq_true, decide_eq_true_eq] at h'
  obtain ⟨m, hm, hw⟩ := (Option.any_eq_true _ _).mp h'.2
  obtain ⟨ht, hgoaway⟩ := closing_terminal hn h.1 hn' h'.1 hm
  rcases hgoaway id with ⟨_, h, _⟩ | ⟨h, _⟩
  · simp [h] at hw
  · exact ⟨n, n', m, _, hn, hn', hm, ht, h⟩

end TunnelWeaver.Mux
