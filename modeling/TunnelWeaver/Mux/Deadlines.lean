import TunnelWeaver.Mux.Usage

/-! Deadlines settle. Of the four kinds, two close the connection and two are moved by firing: a
PING is outstanding until its PONG, the next poll of the verifier is a positive interval away. So
the loop over the expired deadlines fires each kind at most once, and none is left behind. -/

namespace TunnelWeaver.Mux

/-! ## The earliest deadline and the expired one -/

namespace Timers
variable {t : Timers} {now : Instant}

theorem passed_iff {deadline : Option Instant} :
    passed deadline now = true ↔ ∃ d, deadline = some d ∧ d ≤ now := by
  cases deadline <;> simp [passed]

theorem nextTimeout_le_iff {b : Instant} : (∃ d, t.nextTimeout = some d ∧ d ≤ b) ↔
    ∃ d ∈ [t.handshakeDeadline, t.pingDue, t.idleDeadline, t.reverifyDue], passed d b = true := by
  unfold nextTimeout
  constructor
  · rintro ⟨d, hd, hle⟩
    obtain ⟨o, ho, rfl⟩ := List.mem_filterMap.mp (List.min?_mem hd)
    exact ⟨_, ho, passed_iff.mpr ⟨d, rfl, hle⟩⟩
  · rintro ⟨o, ho, hp⟩
    obtain ⟨d, rfl, hle⟩ := passed_iff.mp hp
    have hmem : d ∈ [t.handshakeDeadline, t.pingDue, t.idleDeadline, t.reverifyDue].filterMap id :=
      List.mem_filterMap.mpr ⟨some d, ho, rfl⟩
    cases hmin : ([t.handshakeDeadline, t.pingDue, t.idleDeadline, t.reverifyDue].filterMap
        id).min? with
    | none =>
      rw [List.min?_eq_none_iff.mp hmin] at hmem
      cases hmem
    | some m =>
      exact ⟨m, rfl, ((List.min?_eq_some_iff.mp hmin).2 d hmem).trans hle⟩

/-- Some deadline has expired exactly when the earliest has passed. -/
theorem expired_isSome_iff :
    (t.expired now).isSome = true ↔ ∃ d, t.nextTimeout = some d ∧ d ≤ now := by
  rw [nextTimeout_le_iff]
  unfold expired
  simp only [List.mem_cons, List.not_mem_nil, or_false, exists_eq_or_imp, exists_eq_left]
  cases passed t.handshakeDeadline now <;> cases passed t.pingDue now <;>
    cases passed t.idleDeadline now <;> cases passed t.reverifyDue now <;> simp

theorem passed_of_expired_reverify (h : t.expired now = some .reverify) :
    passed t.reverifyDue now = true := by
  unfold expired at h
  split at h; · cases h
  split at h; · cases h
  split at h
  · assumption
  · split at h <;> cases h

theorem passed_of_expired_ping (h : t.expired now = some .ping) : passed t.pingDue now = true := by
  unfold expired at h
  split at h; · cases h
  split at h; · cases h
  split at h; · cases h
  split at h
  · assumption
  · cases h

/-- The deadlines of an open connection: polls of the verifier recur after a positive interval, and
either the handshake or the silence of the peer is timed. -/
structure Armed (t : Timers) : Prop where
  interval : ∀ i, t.reverifyInterval = some i → 0 < i
  due : t.reverifyDue.isSome = true → t.reverifyInterval.isSome = true
  timed : t.handshakeDeadline.isSome = true ∨ t.authenticated = true

theorem Armed.onAuthenticated (A : t.Armed) (now : Instant) : (t.onAuthenticated now).Armed where
  interval := A.interval
  due h := by simpa [Timers.onAuthenticated] using h
  timed := .inr rfl

/-- Some deadline is armed. -/
theorem Armed.nextTimeout_isSome (A : t.Armed) : t.nextTimeout.isSome = true := by
  cases hmin : t.nextTimeout with
  | some d => rfl
  | none =>
    have hnil := List.min?_eq_none_iff.mp hmin
    rw [List.filterMap_eq_nil_iff] at hnil
    rcases A.timed with h | h
    · have hnone : t.handshakeDeadline = none := hnil _ (by simp)
      rw [hnone] at h
      cases h
    · have hidle := hnil t.idleDeadline (by simp)
      simp [idleDeadline, h] at hidle

end Timers

/-! ## Deadlines of a connection -/

namespace Connection
variable {c c' : Connection} {id : StreamId} {f : Frame}

/-- While the connection is open its deadlines are armed. -/
def Armed (c : Connection) : Prop := c.closed = none → c.timers.Armed

theorem Armed.of (A : c.Armed) (hc : c'.closed = c.closed) (ht : c'.timers = c.timers) :
    c'.Armed := by
  intro h
  rw [ht]
  exact A (hc.symm.trans h)

theorem Armed.of_timers {t : Timers} (A : c.Armed) (h : c.timers.Armed → t.Armed) :
    Armed { c with timers := t } := fun hc => h (A hc)

theorem Armed.dropStream (A : c.Armed) (id : StreamId) : (c.dropStream id).Armed := by
  refine A.of closed_dropStream ?_
  unfold Connection.dropStream
  split <;> rfl

theorem Armed.maybeForget (A : c.Armed) (id : StreamId) : (c.maybeForget id).Armed := by
  unfold Connection.maybeForget
  split
  · exact A
  · split
    · exact A.dropStream id
    · exact A

theorem Armed.finishedStream (A : c.Armed) (id : StreamId) : (c.finishedStream id).Armed :=
  Armed.maybeForget (c := c.pushEvent (.finished id)) A id

theorem Armed.report (A : c.Armed) (id : StreamId) (a b : Nat) : (c.report id a b).Armed := by
  obtain ⟨r, h⟩ := report_eq (c := c) id a b
  rw [h]
  exact A

theorem Armed.onOpenSent (A : c.Armed) (id : StreamId) : (c.onOpenSent id).Armed := by
  unfold Connection.onOpenSent
  split
  · exact A
  · dsimp only
    split <;> exact A

theorem Armed.emitControl (A : c.Armed) (frame : Frame) : (c.emitControl frame).Armed := by
  unfold Connection.emitControl
  dsimp only
  split
  · exact A.onOpenSent frame.streamId
  · exact A

theorem Armed.finish (A : c.Armed) (id : StreamId) : (c.finish id).1.Armed := by
  unfold Connection.finish
  split
  · exact A
  split
  · exact A
  split
  · exact A
  rename_i s _ _
  dsimp only
  split
  · exact Armed.maybeForget (c := (c.setStream id { s with localOpen := false }).queueFin id) A id
  · exact A

theorem Armed.setClass (A : c.Armed) (id : StreamId) (cls : Class) : (c.setClass id cls).1.Armed := by
  unfold Connection.setClass
  split
  · exact A
  split
  · exact A
  split
  · exact A
  split <;> exact A

theorem Armed.decoding {α : Type} {codec : Codec α} {k : α → Outcome} (A : c.Armed)
    (hk : ∀ a, (k a).1.Armed) : (c.decoding codec f k).1.Armed := by
  unfold Connection.decoding
  split
  · exact A
  · exact hk _

theorem Armed.afterAuth {k : Connection → Outcome} (A : c.Armed) (hk : (k c).1.Armed) :
    (c.afterAuth k).1.Armed := by
  unfold Connection.afterAuth
  split
  · exact hk
  · exact A

theorem Armed.withStream {k : Stream → Outcome} (A : c.Armed) (hk : ∀ s, (k s).1.Armed) :
    (c.withStream id k).1.Armed := by
  unfold Connection.withStream
  split
  · exact A
  · exact A
  · exact hk _

theorem Armed.finishHandshake (A : c.Armed) (now : Instant) (version : UInt16) (params : Params)
    (keyId : KeyId) : (c.finishHandshake now version params keyId).Armed :=
  fun hc => (A hc).onAuthenticated now

theorem Armed.onFin (A : c.Armed) (f : Frame) : (c.onFin f).1.Armed := by
  unfold Connection.onFin
  refine A.withStream fun s => ?_
  split
  · exact A
  dsimp only
  split
  · exact A
  · split
    · exact Armed.finishedStream (c := c.setStream f.streamId { s with remoteOpen := false }) A _
    · exact A

theorem Armed.observe (A : c.Armed) (now : Instant) : (c.observe now).Armed :=
  A.of_timers fun B => ⟨B.interval, B.due, B.timed⟩

theorem Armed.pollTransmit (A : c.Armed) : c.pollTransmit.1.Armed := by
  unfold Connection.pollTransmit
  split
  · exact A
  dsimp only
  split
  · exact A
  · split
    · exact A
    · refine Armed.emitControl ?_ _
      exact A
  · split
    · exact A
    · split
      · exact A
      · unfold emitData
        dsimp only
        refine Armed.maybeForget ?_ _
        split <;> exact A

theorem Armed.rearmReverify (A : c.Armed) (now : Instant) : (c.rearmReverify now).Armed := by
  unfold Connection.rearmReverify
  split
  · rename_i i hi
    exact A.of_timers fun B => ⟨B.interval, fun _ => by simp [hi], B.timed⟩
  · exact A

variable [ThirdParty]

/-- A connection that was told to close is closed. -/
theorem armed_closeInternal (reason : CloseReason) (sendGoaway : Bool) :
    (c.closeInternal reason sendGoaway).Armed := by
  intro h
  unfold closeInternal at h
  split at h
  · rename_i hc
    rw [h] at hc
    cases hc
  · cases h

/-! ### Calls -/

theorem Armed.send (A : c.Armed) (id : StreamId) (msg : Bytes) (compress : Compress) :
    (c.send id msg compress).1.Armed := by
  unfold Connection.send
  split
  · exact A
  dsimp only
  split
  · exact A
  split
  · exact A
  split
  · exact A
  split
  · exact A
  rename_i s _ _ _
  generalize payloads _ _ _ = out
  generalize demote _ _ _ = cls
  obtain ⟨r, hr⟩ := foldl_report_eq (c := c.setStream id (s.pushOutbox cls out msg.length)) id out
  rw [hr]
  split
  · exact A
  · split <;> exact A

theorem Armed.recvMsg (A : c.Armed) (id : StreamId) : (c.recvMsg id).1.Armed := by
  unfold Connection.recvMsg
  split
  · exact A
  split
  · exact A
  split
  · exact A
  rename_i s _ _ _ _ rest _
  split
  · dsimp only
    split <;> exact A
  · dsimp only
    split
    · exact Armed.finishedStream (c := c.setStream id { s with inbox := rest }) A id
    · exact A

theorem Armed.open (A : c.Armed) (cls : Class) : (c.open cls).1.Armed := by
  unfold Connection.open
  split
  · exact A
  split
  · exact A
  dsimp only
  split <;> exact A

theorem Armed.reset (A : c.Armed) (id : StreamId) (code : UInt32) : (c.reset id code).1.Armed := by
  unfold Connection.reset
  split
  · exact A
  split
  · exact A
  · exact Armed.dropStream A id

/-! ### Frames -/

theorem Armed.onChallenge (A : c.Armed) (f : Frame) : (c.onChallenge f).1.Armed := by
  unfold Connection.onChallenge
  split
  · exact A
  split
  · exact A
  · refine A.decoding fun ch => ?_
    dsimp only
    split
    · exact armed_closeInternal _ _
    · exact A

theorem Armed.onHello (A : c.Armed) (now : Instant) (f : Frame) : (c.onHello now f).1.Armed := by
  unfold Connection.onHello
  split
  · exact A
  split
  · exact A
  refine A.decoding fun hello => ?_
  split
  · exact armed_closeInternal _ _
  split
  · exact armed_closeInternal _ _
  dsimp only
  split
  · exact armed_closeInternal _ _
  · refine Armed.finishHandshake ?_ _ _ _ _
    exact A

theorem Armed.onWelcome (A : c.Armed) (now : Instant) (f : Frame) :
    (c.onWelcome now f).1.Armed := by
  unfold Connection.onWelcome
  split
  · exact A
  refine A.decoding fun w => ?_
  split
  · exact A
  split
  · exact A
  · refine Armed.finishHandshake ?_ _ _ _ _
    exact A

theorem Armed.onReject (A : c.Armed) (f : Frame) : (c.onReject f).1.Armed := by
  unfold Connection.onReject
  split
  · exact A
  · exact A.decoding fun r => armed_closeInternal _ _

theorem Armed.onStreamOpen (A : c.Armed) (f : Frame) : (c.onStreamOpen f).1.Armed := by
  unfold Connection.onStreamOpen
  dsimp only
  split
  · exact A
  refine A.decoding fun cls => ?_
  split <;> exact A

theorem Armed.onData (A : c.Armed) (f : Frame) : (c.onData f).1.Armed := by
  unfold Connection.onData
  dsimp only
  split
  · exact A
  refine A.withStream fun s => ?_
  split
  · exact A
  split
  · exact A
  rename_i recv _
  have B := Armed.report (c := c.setStream f.streamId { s with recv }) A f.streamId
    (asU32 f.payload.length) 0
  split
  · exact B
  · dsimp only
    split <;> exact B

theorem Armed.onRst (A : c.Armed) (f : Frame) : (c.onRst f).1.Armed :=
  A.decoding fun _ => A.withStream fun _ => A.dropStream f.streamId

theorem Armed.onWindowUpdate (A : c.Armed) (f : Frame) : (c.onWindowUpdate f).1.Armed := by
  refine A.decoding fun wu => A.withStream fun s => ?_
  dsimp only
  split <;> exact A

/-- A PONG answers the PING, and arms the next one. -/
theorem Armed.onPong (A : c.Armed) (f : Frame) : (c.onPong f).1.Armed := by
  refine A.decoding fun p => ?_
  dsimp only
  split
  · exact A.of_timers fun B => ⟨B.interval, B.due, B.timed⟩
  · exact A

theorem Armed.dispatch (A : c.Armed) (now : Instant) (f : Frame) : (c.dispatch now f).1.Armed := by
  unfold Connection.dispatch
  split
  · cases f.frameType with
    | challenge => exact A.onChallenge f
    | hello => exact A.onHello now f
    | welcome => exact A.onWelcome now f
    | reject => exact A.onReject f
    | goaway => exact A.decoding fun g => armed_closeInternal _ _
    | ping => exact A.afterAuth (A.decoding fun p => A)
    | pong => exact A.afterAuth (A.onPong f)
    | «open» | data | fin | rst | windowUpdate => exact A
  · refine A.afterAuth ?_
    cases f.frameType with
    | «open» => exact A.onStreamOpen f
    | data => exact A.onData f
    | fin => exact A.onFin f
    | rst => exact A.onRst f
    | windowUpdate => exact A.onWindowUpdate f
    | challenge | hello | welcome | reject | ping | pong | goaway => exact A

theorem Armed.recv (A : c.Armed) (now : Instant) (bytes : Bytes) : (c.recv now bytes).1.Armed := by
  unfold Connection.recv
  dsimp only
  split
  · exact A.observe now
  split
  · exact armed_closeInternal _ _
  · unfold recvFrame
    dsimp only
    have B : Armed { c.observe now with
        timers := (c.observe now).timers.onRecv (c.observe now).timers.lastNow } :=
      (A.observe now).of_timers fun B => ⟨B.interval, B.due, B.timed⟩
    have D := B.dispatch (c.observe now).timers.lastNow ‹Frame›
    split
    · rename_i heq
      rw [heq] at D
      exact D
    · exact armed_closeInternal _ _

/-! ### Firing -/

theorem Armed.sendPing (A : c.Armed) : c.sendPing.Armed :=
  fun hc => ⟨(A hc).interval, (A hc).due, (A hc).timed⟩

theorem Armed.timeoutLoop {now : Instant} {stillValid : Nat → KeyId → Bool} {fuel : Nat}
    (A : c.Armed) (H : timeoutLoop now stillValid fuel c = some c') : c'.Armed := by
  induction fuel generalizing c with
  | zero => cases H
  | succ fuel ih =>
    unfold Connection.timeoutLoop at H
    split at H
    · cases H
      exact A
    split at H
    · cases H
      exact A
    · exact ih (armed_closeInternal _ _) H
    · exact ih (armed_closeInternal _ _) H
    · refine ih ?_ H
      unfold reverify
      dsimp only
      split
      · exact A.rearmReverify now
      · exact armed_closeInternal _ _
    · exact ih A.sendPing H

/-- How many deadlines are still to fire at `now` before the loop ends: the two that do not close
the connection. -/
def toFire (c : Connection) (now : Instant) : Nat :=
  (if Timers.passed c.timers.reverifyDue now then 1 else 0) +
    if Timers.passed c.timers.pingDue now then 1 else 0

theorem timeoutLoop_of_closed {now : Instant} {stillValid : Nat → KeyId → Bool} {fuel : Nat}
    (hc : c.closed.isSome = true) : timeoutLoop now stillValid (fuel + 1) c = some c := by
  unfold timeoutLoop
  rw [if_pos hc]

omit [ThirdParty] in
/-- The next poll is later than the one that fired. -/
theorem rearmReverify_due {now : Instant} (A : c.timers.Armed)
    (h : Timers.passed c.timers.reverifyDue now = true) :
    Timers.passed (c.rearmReverify now).timers.reverifyDue now = false ∧
      (c.rearmReverify now).timers.pingDue = c.timers.pingDue := by
  have hdue : c.timers.reverifyDue.isSome = true := by
    obtain ⟨d, hd, -⟩ := Timers.passed_iff.mp h
    rw [hd]
    rfl
  obtain ⟨i, hi⟩ := Option.isSome_iff_exists.mp (A.due hdue)
  have hpos := A.interval i hi
  refine ⟨?_, ?_⟩
  · simp only [Connection.rearmReverify, hi, Timers.passed, Option.any_some, decide_eq_false_iff_not]
    exact Nat.not_le.mpr (Nat.lt_add_of_pos_right hpos)
  · simp only [Connection.rearmReverify, hi]
    rfl

/-- The loop over the expired deadlines ends, and leaves none that is not in the future. -/
theorem timeoutLoop_settles {now : Instant} (stillValid : Nat → KeyId → Bool) {fuel : Nat}
    (A : c.Armed) (hfuel : c.toFire now + 2 ≤ fuel) :
    ∃ c', timeoutLoop now stillValid fuel c = some c' ∧
      (c'.closed = none → c'.timers.lastNow = c.timers.lastNow ∧ c'.timers.expired now = none) := by
  have hclosing : ∀ {c₁ : Connection} {n : Nat}, c₁.closed.isSome = true → 1 ≤ n →
      ∃ c', timeoutLoop now stillValid n c₁ = some c' ∧
        (c'.closed = none → c'.timers.lastNow = c.timers.lastNow ∧
          c'.timers.expired now = none) := by
    intro c₁ n hc₁ hn
    obtain ⟨m, rfl⟩ : ∃ m, n = m + 1 := ⟨n - 1, by omega⟩
    refine ⟨c₁, timeoutLoop_of_closed hc₁, fun ho => ?_⟩
    rw [ho] at hc₁
    cases hc₁
  induction fuel generalizing c with
  | zero => omega
  | succ fuel ih =>
    cases hc : c.closed with
    | some reason => exact hclosing (by rw [hc]; rfl) (by omega)
    | none =>
      have hclose : ∀ reason, (c.closeInternal reason true).closed.isSome = true := by
        intro reason
        rw [closed_closeInternal hc]
        rfl
      unfold timeoutLoop
      rw [if_neg (by simp [hc])]
      cases hx : c.timers.expired now with
      | none => exact ⟨c, rfl, fun _ => ⟨rfl, hx⟩⟩
      | some x =>
        cases x with
        | handshake | idle => exact hclosing (hclose _) (by omega)
        | reverify =>
          have hpassed := Timers.passed_of_expired_reverify hx
          obtain ⟨hdue, hping⟩ := rearmReverify_due (A hc) hpassed
          dsimp only
          unfold reverify
          dsimp only
          split
          · have hlast : (c.rearmReverify now).timers.lastNow = c.timers.lastNow := by
              unfold Connection.rearmReverify
              split <;> rfl
            rw [← hlast] at hclosing ⊢
            refine ih (A.rearmReverify now) ?_ hclosing
            simp only [toFire, hdue, hping, hpassed, if_true, Bool.false_eq_true, if_false] at hfuel ⊢
            omega
          · refine hclosing ?_ (by omega)
            rw [closed_closeInternal (closed_rearmReverify now |>.trans hc)]
            rfl
        | ping =>
          have hpassed := Timers.passed_of_expired_ping hx
          have hsame : c.sendPing.timers.reverifyDue = c.timers.reverifyDue := rfl
          have hping : Timers.passed c.sendPing.timers.pingDue now = false := by
            simp [sendPing, pushControl, Timers.pingDue, Timers.passed]
          refine ih (c := c.sendPing) A.sendPing ?_ hclosing
          simp only [toFire, hsame, hping, hpassed, if_true, Bool.false_eq_true, if_false] at hfuel ⊢
          omega

theorem armed_new {cfg : Config} (now : Instant)
    (hpos : ∀ v p i, cfg.role = .server v p (some i) → 0 < i) : (new cfg now).Armed := by
  intro _
  cases hrole : cfg.role with
  | client signer =>
    refine ⟨fun i hi => ?_, fun h => ?_, ?_⟩ <;>
      simp only [new, Config.normalize, hrole, Role.normalize, fresh, Timers.new] at *
    · cases hi
    · cases h
    · exact .inl rfl
  | server v p reverify =>
    refine ⟨fun i hi => ?_, fun h => ?_, ?_⟩ <;>
      simp only [new, Config.normalize, hrole, Role.normalize, fresh, Timers.new] at *
    · exact hpos v p i (by rw [hi])
    · cases h
    · exact .inl rfl

end Connection

namespace Node
variable [ThirdParty] {n n' : Node}

theorem call_armed (A : n.conn.Armed) (k : Call) : (n.call k).conn.Armed := by
  cases k with
  | «open» cls => exact A.open cls
  | send id msg compress =>
    have h := A.send id msg compress
    unfold call
    dsimp only
    split <;> exact h
  | recvMsg id =>
    have h := A.recvMsg id
    unfold call
    dsimp only
    split <;> exact h
  | finish id => exact A.finish id
  | reset id code => exact A.reset id code
  | setClass id cls => exact A.setClass id cls
  | close reason => exact Connection.armed_closeInternal reason true
  | pollEvent =>
    unfold call Connection.pollEvent
    dsimp only
    split <;> exact A
  | setBytesSink => exact A

theorem face_armed {x : Input} (H : n.face x = some n') (A : n.conn.Armed) : n'.conn.Armed := by
  cases x with
  | call k =>
    cases H
    exact call_armed A k
  | handleTimeout now stillValid fuel =>
    obtain ⟨c, hc, rfl⟩ := Option.map_eq_some_iff.mp H
    exact Connection.Armed.timeoutLoop (A.observe now) hc
  | pollTransmit =>
    cases H
    exact A.pollTransmit
  | recv now bytes =>
    cases H
    exact A.recv now bytes

/-- Every deadline that has passed fires, and then none has: the connection is closed, or the next
deadline is in the future. The earliest deadline of an open connection has passed exactly when some
deadline has expired. -/
theorem deadlines_settle {cfg : Config} {start now : Instant} {inputs : List Input}
    (hpos : ∀ v p i, cfg.role = .server v p (some i) → 0 < i)
    (H : exposed cfg start inputs = some n) (hnow : n.conn.timers.lastNow ≤ now) :
    (∀ stillValid fuel, 4 ≤ fuel → ∃ c, n.conn.handleTimeout now stillValid fuel = some c ∧
      (c.closed.isSome = true ∨
        c.timers.lastNow = now ∧ ∃ d, c.nextTimeout = some d ∧ now < d)) ∧
    (n.conn.closed = none → ∀ t, (n.conn.timers.expired t).isSome = true ↔
      ∃ d, n.conn.nextTimeout = some d ∧ d ≤ t) := by
  have A : n.conn.Armed := (exposed_induction (I := fun n => n.conn.Armed)
    (Connection.armed_new start hpos) (fun _ H A => face_armed H A) H).2
  refine ⟨fun stillValid fuel hfuel => ?_, fun ho t => ?_⟩
  · have hlast : (n.conn.observe now).timers.lastNow = now := max_eq_left hnow
    have htwo : (n.conn.observe now).toFire now ≤ 2 := by
      unfold Connection.toFire
      split <;> split <;> omega
    have hrounds : (n.conn.observe now).toFire now + 2 ≤ fuel := by omega
    obtain ⟨c, hc, hsettled⟩ :=
      Connection.timeoutLoop_settles stillValid (A.observe now) hrounds
    have hc : n.conn.handleTimeout now stillValid fuel = some c := by
      unfold Connection.handleTimeout
      dsimp only
      rw [hlast]
      exact hc
    refine ⟨c, hc, ?_⟩
    cases ho : c.closed with
    | some reason => exact .inl rfl
    | none =>
      obtain ⟨hl, hx⟩ := hsettled ho
      have B : c.Armed := Connection.Armed.timeoutLoop (A.observe now) hc
      obtain ⟨d, hd⟩ := Option.isSome_iff_exists.mp (B ho).nextTimeout_isSome
      refine .inr ⟨hl.trans hlast, d, ?_, ?_⟩
      · rw [Connection.nextTimeout, ho]
        exact hd
      · by_contra hle
        have h := Timers.expired_isSome_iff.mpr ⟨d, hd, Nat.not_lt.mp hle⟩
        rw [hx] at h
        cases h
  · rw [Timers.expired_isSome_iff, Connection.nextTimeout, ho]
    rfl

end Node

namespace Sample

/-- A server that polls its verifier every second. -/
def polling : Config :=
  { setup.server with role := .server setup.verifier setup.params (some (secs 1)) }

end Sample

namespace Node

open scoped Sample in
/-- A poll of the verifier and a PING are due at once; both go out, and the next poll is later. -/
theorem deadlines_settle_polled : ∃ n c d,
    exposed Sample.polling 0 Sample.admitted = some n ∧
    n.conn.handleTimeout (secs 20) (fun _ _ => true) 4 = some c ∧ c.closed = none ∧
    c.nextTimeout = some d ∧ secs 20 < d := by
  have h : (exposed Sample.polling 0 Sample.admitted).any (fun n =>
    decide (n.conn.timers.lastNow ≤ secs 20) &&
    (n.conn.handleTimeout (secs 20) (fun _ _ => true) 4).any fun c => c.closed.isNone) = true := by
    decide +kernel
  obtain ⟨n, hn, h⟩ := (Option.any_eq_true _ _).mp h
  rw [Bool.and_eq_true, decide_eq_true_eq] at h
  obtain ⟨c, hc, ho⟩ := (Option.any_eq_true _ _).mp h.2
  rw [Option.isNone_iff_eq_none] at ho
  have hpos : ∀ v p i, Sample.polling.role = .server v p (some i) → 0 < i := by
    intro v p i hi
    cases hi
    decide
  obtain ⟨c', hc', hsettled⟩ := (deadlines_settle hpos hn h.1).1 (fun _ _ => true) 4 (by decide)
  cases hc.symm.trans hc'
  rcases hsettled with hclosed | ⟨-, d, hd, hlt⟩
  · rw [ho] at hclosed
    cases hclosed
  · exact ⟨n, c, d, hn, hc, ho, hd, hlt⟩

end Node

end TunnelWeaver.Mux
