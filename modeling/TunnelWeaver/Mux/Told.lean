import TunnelWeaver.Mux.Closing
import TunnelWeaver.Mux.Events

/-! What a connection tells its application, whatever its peer sends: every input evolves the
journal of the connection by `Journal.Calm` steps or closes it. -/

namespace TunnelWeaver.Mux

namespace Connection

section
variable [ThirdParty]

/-- The message that `f` completes on a stream. -/
def completes (c : Connection) (f : Frame) : Option (StreamId × Bytes) :=
  if f.frameType = .data then
    match parseData c.paramsInForce f.streamId f.payload, c.streams.lookup f.streamId with
    | .ok (data, false), some s => some (f.streamId, s.partialMsg ++ data)
    | _, _ => none
  else none

/-- The message received with `bytes`, if they are accepted and complete one. -/
def arrival (c : Connection) (now : Instant) (bytes : Bytes) : Option (StreamId × Bytes) :=
  if c.closed.isSome then none
  else match Frame.parse bytes, (c.recv now bytes).2 with
    | .ok f, .ok () => c.completes f
    | _, _ => none

end

def line (c : Connection) (arrived taken : StreamId → List Bytes) (id : StreamId) : Line where
  stream := (c.streams.lookup id).map fun s => (s.remoteOpen, s.inbox.map (·.1))
  arrived := arrived id
  taken := taken id

/-- The journal of a connection whose application polled the events `polled`. -/
def journal (c : Connection) (polled : List Event) (arrived taken : StreamId → List Bytes) :
    Journal where
  cfg := c.cfg
  nonceS := c.nonceS
  hs := c.hs
  closed := c.closed
  Known id := c.known id = true
  lines := c.line arrived taken
  told := polled ++ c.events

end Connection

/-- A node with the complete messages received on each stream. -/
structure Watch where
  node : Node
  arrived : StreamId → List Bytes

namespace Watch
variable [ThirdParty]

/-- Note a message that arrived. -/
def note (arrived : StreamId → List Bytes) : Option (StreamId × Bytes) → StreamId → List Bytes
  | some (id, m) => Function.update arrived id (arrived id ++ [m])
  | none => arrived

def face (w : Watch) (x : Input) : Option Watch :=
  (w.node.face x).map fun node =>
    { node, arrived := match x with
      | .recv now bytes => note w.arrived (w.node.conn.arrival now bytes)
      | _ => w.arrived }

def new (conn : Connection) : Watch := ⟨.new conn, fun _ => []⟩

def exposed (cfg : Config) (now : Instant) (inputs : List Input) : Option Watch :=
  Automaton.run face (.new (.new cfg now)) inputs

/-- Every event so far, polled or not. -/
def told (w : Watch) : List Event := w.node.polled ++ w.node.conn.events

def journal (w : Watch) : Journal := w.node.conn.journal w.node.polled w.arrived w.node.taken

end Watch

namespace Connection

open Journal (Calm Closing Evolves)

variable {c c' c₀ : Connection} {id : StreamId} {s t : Stream} {A : KeyId → Prop}
  {p : List Event} {a r : StreamId → List Bytes}

/-! ## Journals of changed connections -/

theorem journal_of (hcfg : c'.cfg = c.cfg) (hn : c'.nonceS = c.nonceS) (hs : c'.hs = c.hs)
    (hc : c'.closed = c.closed) (hnext : c'.nextStreamId = c.nextStreamId)
    (hlast : c'.lastPeerStreamId = c.lastPeerStreamId) (hstr : c'.line a r = c.line a r)
    (hev : c'.events = c.events) : c'.journal p a r = c.journal p a r := by
  have hk : c'.known = c.known := by
    funext id
    simp [known, peerOpensOdd, hcfg, hnext, hlast]
  simp only [journal, hcfg, hn, hs, hc, hk, hstr, hev]

theorem line_setStream {a' r' : StreamId → List Bytes} (id : StreamId) (t : Stream)
    (ha : ∀ i, i ≠ id → a' i = a i) (hr : ∀ i, i ≠ id → r' i = r i) :
    (c.setStream id t).line a' r' = Function.update (c.line a r) id
      ⟨some (t.remoteOpen, t.inbox.map (·.1)), a' id, r' id⟩ := by
  funext i
  rw [Function.update_apply]
  split
  · rename_i hi
    subst hi
    simp [line, setStream]
  · rename_i hi
    simp [line, lookup_setStream_ite, hi, ha i hi, hr i hi]

/-- One stream changes, with what arrived and what was taken on it. -/
theorem journal_setStream {a' r' : StreamId → List Bytes} (id : StreamId) (t : Stream)
    (ha : ∀ i, i ≠ id → a' i = a i) (hr : ∀ i, i ≠ id → r' i = r i) :
    (c.setStream id t).journal p a' r' =
      (c.journal p a r).set id ⟨some (t.remoteOpen, t.inbox.map (·.1)), a' id, r' id⟩ := by
  simp only [journal, Journal.set, line_setStream id t ha hr]
  rfl

theorem line_of_lookup (h : c.streams.lookup id = some s) :
    c.line a r id = ⟨some (s.remoteOpen, s.inbox.map (·.1)), a id, r id⟩ := by
  simp [line, h]

/-- What the application does not see of a stream may change. -/
theorem journal_setStream_same (h : c.streams.lookup id = some s)
    (ho : t.remoteOpen = s.remoteOpen) (hi : t.inbox = s.inbox) :
    (c.setStream id t).journal p a r = c.journal p a r := by
  rw [journal_setStream id t (fun _ _ => rfl) (fun _ _ => rfl), ho, hi, ← line_of_lookup h]
  simp [Journal.set, journal]

theorem journal_dropStream (id : StreamId) : (c.dropStream id).journal p a r =
    (c.journal p a r).set id ⟨none, a id, r id⟩ := by
  have h : (c.dropStream id).line a r = Function.update (c.line a r) id ⟨none, a id, r id⟩ := by
    funext i
    rw [Function.update_apply]
    split
    · rename_i hi
      subst hi
      simp [line, lookup_dropStream]
    · rename_i hi
      simp [line, lookup_dropStream, hi]
  have hrest : (c.dropStream id).journal p a r =
      { c.journal p a r with lines := (c.dropStream id).line a r } := by
    unfold dropStream
    split <;> rfl
  rw [hrest, h]
  rfl

theorem journal_pushEvent (ev : Event) :
    (c.pushEvent ev).journal p a r = (c.journal p a r).tell [ev] := by
  simp only [journal, pushEvent, Journal.tell, ← List.append_assoc]
  rfl

theorem journal_report (x y : Nat) : (c.report id x y).journal p a r = c.journal p a r := by
  obtain ⟨reports, h⟩ := report_eq (c := c) id x y
  rw [h]
  rfl

/-- A stream with nothing left to do may be forgotten. -/
theorem maybeForget_calm :
    Relation.ReflTransGen (Calm A) (c.journal p a r) ((c.maybeForget id).journal p a r) := by
  unfold maybeForget
  split
  · exact .refl
  · rename_i s hs
    split
    · rw [journal_dropStream]
      refine .single (.quiet ?_)
      change (c.line a r id).Turn ..
      rw [line_of_lookup hs]
      exact .drop
    · exact .refl

theorem forget_evolves (h : c'.journal p a r = c.journal p a r) :
    Evolves A (c.journal p a r) ((c'.maybeForget id).journal p a r) := h ▸ .inl maybeForget_calm

/-- Something happens to a tracked stream. -/
theorem turn_calm (h : c.streams.lookup id = some s) {l : Line} {q : List Event}
    (H : Line.Turn id ⟨some (s.remoteOpen, s.inbox.map (·.1)), a id, r id⟩ l q) :
    Calm A (c.journal p a r) (((c.journal p a r).set id l).tell q) := by
  refine .turn ?_
  change (c.line a r id).Turn id l q
  rwa [line_of_lookup h]

/-- The peer sends no more and the last message was taken. -/
theorem finishedStream_evolves {a' r' : StreamId → List Bytes} {l : Line}
    (hset : c'.journal p a' r' = (c.journal p a r).set id l)
    (h : Calm A (c.journal p a r) (((c.journal p a r).set id l).tell [.finished id])) :
    Evolves A (c.journal p a r) ((c'.finishedStream id).journal p a' r') := by
  rw [← hset, ← journal_pushEvent] at h
  exact .inl (.head h maybeForget_calm)

/-! ## Closing -/

theorem events_foldl_closeStream (ids : List StreamId) : (ids.foldl closeStream c).events =
    c.events ++ ids.map (Event.reset · rstCodeConnectionClosed) := by
  induction ids generalizing c with
  | nil => simp
  | cons id ids ih =>
    have hone : (c.closeStream id).events = c.events ++ [.reset id rstCodeConnectionClosed] := by
      unfold closeStream dropStream
      split <;> rfl
    rw [List.foldl_cons, ih, hone, List.append_assoc]
    rfl

theorem nodup_sortedIds : c.sortedIds.Nodup :=
  (List.perm_insertionSort ..).nodup_iff.mpr (AList.keys_nodup _)

theorem mem_sortedIds_iff : id ∈ c.sortedIds ↔ (c.streams.lookup id).isSome = true := by
  rw [sortedIds, List.mem_insertionSort, ← AList.mem_keys, ← AList.lookup_isSome]

variable [ThirdParty]

theorem closeInternal_frame (hc : c.closed = none) (reason : CloseReason) (sendGoaway : Bool) :
    ∃ streams sched timers priorityOut, c.closeInternal reason sendGoaway =
      { c with
        streams
        sched
        timers
        priorityOut
        closed := some reason
        events := c.events ++ Event.closing c.sortedIds reason } := by
  unfold closeInternal
  rw [if_neg (by simp [hc])]
  obtain ⟨st, sc, ev, h⟩ := foldl_closeStream_frame
    (c := c.dropQueues reason sendGoaway) (c.dropQueues reason sendGoaway).sortedIds
  have hevs := events_foldl_closeStream
    (c := c.dropQueues reason sendGoaway) (c.dropQueues reason sendGoaway).sortedIds
  dsimp only
  rw [h] at hevs ⊢
  dsimp only at hevs ⊢
  rw [hevs]
  refine ⟨st, sc, c.timers.clear, (c.dropQueues reason sendGoaway).priorityOut, ?_⟩
  simp [pushEvent, Event.closing, dropQueues, sortedIds]

/-- A connection closes as `c₀` would, though it may have looked at the streams before, and a
refusal comes first. -/
theorem closeInternal_closing {q : List Event} (hc : c.closed = none) (h₀ : c₀.closed = none)
    (hcfg : c.cfg = c₀.cfg) (hn : c.nonceS = c₀.nonceS) (hs : c.hs = c₀.hs)
    (hnext : c.nextStreamId = c₀.nextStreamId) (hlast : c.lastPeerStreamId = c₀.lastPeerStreamId)
    (hstr : ∀ id, (c.streams.lookup id).isSome = (c₀.streams.lookup id).isSome)
    (hev : c.events = c₀.events ++ q)
    (hr : q = [] ∨ c₀.hs ≠ .done ∧ ∃ code message, q = [.rejected code message])
    (reason : CloseReason) (sendGoaway : Bool) :
    Closing (c₀.journal p a r) ((c.closeInternal reason sendGoaway).journal p a r) := by
  have hids : ∀ id, id ∈ c.sortedIds ↔
      (((c₀.journal p a r).lines id).stream.isSome) = true := fun id => by
    rw [mem_sortedIds_iff, hstr]
    simp [journal, line]
  have hcl := @Closing.mk (c₀.journal p a r) q c.sortedIds reason h₀ hr nodup_sortedIds hids
  convert hcl using 1
  have hcore : ∀ id, (c.closeInternal reason sendGoaway).streams.lookup id = none := fun id => by
    have := congrArg (fun e => e.streams id)
      (core_closeInternal hc : (c.closeInternal reason sendGoaway).core = _)
    simpa [core, Endpoint.shut] using this
  have hline : (c.closeInternal reason sendGoaway).line a r =
      fun id => { c₀.line a r id with stream := none } := by
    funext id
    simp [line, hcore]
  obtain ⟨st, sc, ti, pr, hframe⟩ := closeInternal_frame hc reason sendGoaway
  simp only [journal, hline]
  rw [hframe]
  simp only [known, peerOpensOdd, hnext, hlast, hcfg, hn, hs, hev, List.append_assoc]
  rfl

theorem close_evolves (hc : c.closed = none) (reason : CloseReason) (sendGoaway : Bool) :
    Evolves A (c.journal p a r) ((c.closeInternal reason sendGoaway).journal p a r) :=
  .inr (closeInternal_closing (q := []) hc hc rfl rfl rfl rfl rfl (fun _ => rfl) (by simp)
    (.inl rfl) _ _)

/-! ## Deadlines and transmission -/

theorem timeoutLoop_evolves {now : Instant} {stillValid : Nat → KeyId → Bool} {fuel : Nat}
    (hc : c.closed = none) (H : timeoutLoop now stillValid fuel c = some c') :
    Evolves A (c.journal p a r) (c'.journal p a r) := by
  -- a closed connection ends the loop
  have hstop : ∀ {fuel reason} {c₁ : Connection}, c₁.closed = none →
      c₁.journal p a r = c.journal p a r →
      timeoutLoop now stillValid fuel (c₁.closeInternal reason true) = some c' →
      Evolves A (c.journal p a r) (c'.journal p a r) := by
    intro fuel reason c₁ h₁ hj H
    cases fuel with
    | zero => cases H
    | succ fuel =>
      unfold timeoutLoop at H
      rw [if_pos (by simp [closed_closeInternal h₁])] at H
      cases H
      exact hj ▸ close_evolves h₁ _ _
  induction fuel generalizing c with
  | zero => cases H
  | succ fuel ih =>
    unfold timeoutLoop at H
    split at H
    · cases H
      exact .refl
    split at H
    · cases H
      exact .refl
    · exact hstop hc rfl H
    · exact hstop hc rfl H
    · have hj : (c.rearmReverify now).journal p a r = c.journal p a r := by
        unfold rearmReverify
        split <;> rfl
      unfold reverify at H
      dsimp only at H
      split at H
      · have hnext := ih (by simpa using hc) H fun {fuel reason c₁} h₁ hj' H =>
          hj ▸ hstop h₁ (hj'.trans hj) H
        exact hj ▸ hnext
      · exact hstop (by simpa using hc) hj H
    · exact ih (c := c.sendPing) hc H hstop

omit [ThirdParty] in
theorem pollTransmit_evolves (S : Synced c) :
    Evolves A (c.journal p a r) (c.pollTransmit.1.journal p a r) := by
  rcases S.pollTransmit_cases with ⟨f, rest, _, h⟩ | ⟨_, _, h⟩ | ⟨_, f, rest, _, _, h⟩ |
    ⟨_, id, s, payload, rest, hs, _, _, h⟩ <;> rw [h]
  · exact .refl
  · exact .refl
  · refine .of_eq ?_
    unfold emitControl
    dsimp only
    split
    · unfold onOpenSent
      dsimp only
      split
      · rfl
      · rename_i s hs
        have hset := journal_setStream_same (p := p) (a := a) (r := r) (t := { s with openSent := true })
          hs rfl rfl
        split <;> exact hset
    · rfl
  · unfold emitData
    dsimp only
    have hset := journal_setStream_same (p := p) (a := a) (r := r) (t := s.popOutbox payload rest)
      hs rfl rfl
    split <;> exact forget_evolves hset

/-! ## Calls -/

theorem send_evolves (id : StreamId) (msg : Bytes) (compress : Compress) :
    (c.send id msg compress).1.journal p a r = c.journal p a r := by
  unfold send
  split
  · rfl
  dsimp only
  split
  · rfl
  split
  · rfl
  rename_i s hs
  split
  · rfl
  split
  · exact journal_setStream_same hs rfl rfl
  generalize payloads _ _ _ = out
  generalize demote _ _ _ = cls
  have hset := journal_setStream_same (p := p) (a := a) (r := r)
    (t := s.pushOutbox cls out msg.length) hs rfl rfl
  obtain ⟨reports, hr⟩ := foldl_report_eq
    (c := c.setStream id (s.pushOutbox cls out msg.length)) id out
  rw [hr]
  split
  · exact hset
  · split <;> exact hset

omit [ThirdParty] in
theorem setClass_evolves (id : StreamId) (cls : Class) :
    (c.setClass id cls).1.journal p a r = c.journal p a r := by
  unfold setClass
  split
  · rfl
  split
  · rfl
  split
  · rfl
  rename_i s hs
  split
  · rfl
  · exact journal_setStream_same hs rfl rfl

omit [ThirdParty] in
theorem finish_evolves (id : StreamId) :
    Evolves A (c.journal p a r) ((c.finish id).1.journal p a r) := by
  unfold finish
  split
  · exact .refl
  split
  · exact .refl
  rename_i s hs
  split
  · exact .refl
  · have hset := journal_setStream_same (p := p) (a := a) (r := r)
      (t := { s with localOpen := false }) hs rfl rfl
    dsimp only
    split
    · exact forget_evolves hset
    · exact .of_eq hset

theorem reset_evolves (id : StreamId) (code : UInt32) :
    Evolves A (c.journal p a r) ((c.reset id code).1.journal p a r) := by
  unfold reset
  split
  · exact .refl
  split
  · exact .refl
  · rename_i s hs
    have hturn := turn_calm (A := A) (p := p) (a := a) (r := r) hs .drop
    rw [Journal.tell_nil, ← journal_dropStream] at hturn
    exact hturn.evolves

omit [ThirdParty] in
theorem ready_ok (h : c.ready = .ok ()) : c.hs = .done ∧ c.closed = none := by
  unfold ready at h
  split at h
  · cases h
  · rename_i hc
    split at h
    · cases h
    · rename_i hs
      exact ⟨not_not.mp hs, by simpa using hc⟩

omit [ThirdParty] in
/-- A stream is opened, with or without the application being told. -/
theorem use_evolves {q : List Event} (hs : c.hs = .done) (hc : c.closed = none)
    (hnew : ¬c.known id = true) (hmono : ∀ i, c.known i = true → c'.known i = true)
    (hid : c'.known id = true) (hstr : c'.streams = c.streams.insert id t)
    (ho : t.remoteOpen = true) (hi : t.inbox = []) (hcfg : c'.cfg = c.cfg)
    (hn : c'.nonceS = c.nonceS) (hs' : c'.hs = c.hs) (hc' : c'.closed = c.closed)
    (hev : c'.events = c.events ++ q) (hes : q = [] ∨ ∃ cls, q = [.streamOpened id cls]) :
    Evolves A (c.journal p a r) (c'.journal p a r) := by
  have h := Calm.use (A := A) (j := c.journal p a r) hs hc hnew hmono hid hes
  convert h.evolves using 1
  have hline : c'.line a r = Function.update (c.line a r) id ⟨some (true, []), a id, r id⟩ := by
    have hset := line_setStream (c := c) (a := a) (r := r) id t (fun _ _ => rfl) (fun _ _ => rfl)
    rw [ho, hi] at hset
    rw [← List.map_nil, ← hset]
    funext i
    simp [line, hstr, setStream]
  simp only [journal, Journal.use, Journal.tell, Journal.set, hline, hcfg, hn, hs', hc', hev,
    List.append_assoc]
  rfl

theorem open_evolves {P : Params} (G : c.core.Good P) (cls : Class) :
    Evolves A (c.journal p a r) ((c.open cls).1.journal p a r) := by
  unfold Connection.open
  split
  · exact .refl
  rename_i hready
  obtain ⟨hs, hc⟩ := ready_ok hready
  split
  · exact .refl
  dsimp only
  split
  · exact .refl
  have hpar : (c.nextStreamId % 2 == 1) = !c.core.server := G.next_parity
  generalize hc' : Prod.fst _ = c'
  have hcore : c'.core.server = c.core.server ∧ c'.core.next = c.core.next + 2 ∧
      c'.core.lastPeer = c.core.lastPeer := by
    subst hc'
    exact ⟨rfl, rfl, rfl⟩
  obtain ⟨hsrv, hnext, hlast⟩ := hcore
  have hmono : ∀ i, c.known i = true → c'.known i = true := fun i h =>
    known_iff.mpr ((known_iff.mp h).mono hsrv (by omega) (by omega))
  have hid : c'.known c.nextStreamId = true := by
    refine known_iff.mpr ?_
    unfold Endpoint.Known
    rw [hpar, hsrv, hnext]
    cases c.core.server <;> simp [core]
  refine use_evolves (t := Stream.new cls c.paramsInForce.initialWindow.toNat false) (q := []) hs hc
    (fun h => G.not_known_next (known_iff.mp h)) hmono hid ?_ rfl rfl ?_ ?_ ?_ ?_ ?_ (.inl rfl) <;>
    subst hc'
  · rfl
  · rfl
  · rfl
  · rfl
  · rfl
  · exact (List.append_nil _).symm

theorem recvMsg_evolves (id : StreamId) : Evolves A (c.journal p a r)
    ((c.recvMsg id).1.journal p a (match (c.recvMsg id).2 with
      | .ok msg => Function.update r id (r id ++ [msg])
      | .error _ => r)) := by
  unfold recvMsg
  split
  · exact .refl
  split
  · exact .refl
  rename_i s hs
  split
  · exact .refl
  rename_i msg wireLen rest hin
  have hline : c.line a r id = ⟨some (s.remoteOpen, msg :: rest.map (·.1)), a id, r id⟩ := by
    rw [line_of_lookup hs, hin]
    rfl
  have hset : ∀ (t : Stream), (c.setStream id t).journal p a
      (Function.update r id (r id ++ [msg])) = (c.journal p a r).set id
        ⟨some (t.remoteOpen, t.inbox.map (·.1)), a id, r id ++ [msg]⟩ := fun t => by
    rw [journal_setStream (r := r) id t (fun _ _ => rfl) fun i hi => Function.update_of_ne hi ..,
      Function.update_self]
  split
  · rename_i ho
    have h : Calm A (c.journal p a r) ((c.journal p a r).set id
        ⟨some (s.remoteOpen, rest.map (·.1)), a id, r id ++ [msg]⟩) := by
      refine .quiet ?_
      change (c.line a r id).Turn ..
      rw [hline]
      exact .took (.inl ho)
    have hj := hset { s with inbox := rest, recv := (s.recv.onConsumed wireLen).1 }
    rw [← hj] at h
    dsimp only
    split <;> exact h.evolves
  · rename_i ho
    rw [Bool.not_eq_true] at ho
    have hj := hset { s with inbox := rest }
    dsimp only at hj ⊢
    split
    · rename_i hrest
      rw [List.isEmpty_iff] at hrest
      subst hrest
      refine finishedStream_evolves hj (.turn ?_)
      change (c.line a r id).Turn ..
      rw [hline, ho]
      exact .tookLast
    · rename_i hrest
      rw [hj]
      refine (Calm.quiet ?_).evolves
      change (c.line a r id).Turn ..
      rw [hline, ho]
      exact .took (.inr (by simpa using hrest))

/-! ## Receive -/

/-- The HELLO `f` proves to a server that its sender holds the key `k` names. -/
def Admits (c : Connection) (f : Frame) (k : KeyId) : Prop :=
  c.cfg.role.isServer = true → ∃ verifier params reverify hello pk,
    c.cfg.role = .server verifier params reverify ∧ f.frameType = .hello ∧
    ThirdParty.hello.decode f.payload = some hello ∧ hello.keyId = k ∧
    verifier.publicKey k = some pk ∧
    verify k pk (transcript (c.nonceS.getD c.cfg.rng) hello.nonceC c.cfg.serverName
      c.cfg.channelBinding) hello.sig = true

/-- What the handler of `f` leaves behind: after an error the connection closes. -/
def Journaled (p : List Event) (a r : StreamId → List Bytes) (c : Connection) (f : Frame)
    (o : Outcome) : Prop :=
  match o.2 with
  | .ok () => Evolves (c.Admits f) (c.journal p a r)
      (o.1.journal p (Watch.note a (c.completes f)) r)
  | .error _ => ∀ reason, Closing (c.journal p a r) ((o.1.closeInternal reason true).journal p a r)

variable {f : Frame}

theorem error_journaled (hc : c.closed = none) (e : ProtocolError) :
    Journaled p a r c f (c, .error e) := fun _ =>
  closeInternal_closing (q := []) hc hc rfl rfl rfl rfl rfl (fun _ => rfl) (by simp)
    (.inl rfl) _ _

/-- A stream was looked at before the connection closes. -/
theorem setStream_error_journaled (hc : c.closed = none) (h : c.streams.lookup id = some s)
    (t : Stream) (reports : List (StreamId × Nat × Nat)) (e : ProtocolError) :
    Journaled p a r c f ({ c.setStream id t with reports }, .error e) := by
  intro reason
  refine closeInternal_closing (c := { c.setStream id t with reports }) hc hc rfl rfl rfl rfl rfl
    (fun i => ?_) (List.append_nil _).symm (.inl rfl) _ _
  change ((c.setStream id t).streams.lookup i).isSome = _
  rw [lookup_setStream_ite]
  split
  · rename_i hi
    subst hi
    simp [h]
  · rfl

theorem decoding_journaled {α : Type} {codec : Codec α} {k : α → Outcome} (hc : c.closed = none)
    (hk : ∀ x, codec.decode f.payload = some x → Journaled p a r c f (k x)) :
    Journaled p a r c f (c.decoding codec f k) := by
  unfold decoding
  split
  · exact error_journaled hc _
  · exact hk _ ‹_›

theorem afterAuth_journaled {k : Connection → Outcome} (hc : c.closed = none)
    (hk : c.hs = .done → Journaled p a r c f (k c)) : Journaled p a r c f (c.afterAuth k) := by
  unfold afterAuth
  split
  · exact hk ‹_›
  · exact error_journaled hc _

theorem note_of_ne (h : f.frameType ≠ .data) : Watch.note a (c.completes f) = a := by
  simp [completes, h, Watch.note]

/-- A handler of anything but DATA. -/
theorem ok_journaled (ht : f.frameType ≠ .data)
    (h : Evolves (c.Admits f) (c.journal p a r) (c'.journal p a r)) :
    Journaled p a r c f (c', .ok ()) := by
  change Evolves _ _ (c'.journal p (Watch.note a (c.completes f)) r)
  rwa [note_of_ne ht]

theorem withStream_journaled {k : Stream → Outcome} (hc : c.closed = none)
    (hk : ∀ s, c.streams.lookup f.streamId = some s → Journaled p a r c f (k s)) :
    Journaled p a r c f (c.withStream f.streamId k) := by
  unfold withStream streamMut
  split
  · exact error_journaled hc _
  · rename_i heq
    split at heq
    · cases heq
    · rename_i hnone
      have hcomp : c.completes f = none := by
        unfold completes
        split
        · rw [hnone]
          split <;> rename_i heq _
          · rename_i h
            cases h
          · rfl
        · rfl
      change Evolves _ _ (c.journal p (Watch.note a (c.completes f)) r)
      rw [hcomp]
      exact .refl
  · rename_i s heq
    split at heq
    · rename_i s' hs
      cases heq
      exact hk s hs
    · split at heq <;> cases heq

theorem onChallenge_journaled (hc : c.closed = none) (ht : f.frameType ≠ .data) :
    Journaled p a r c f (c.onChallenge f) := by
  unfold onChallenge
  split
  · exact error_journaled hc _
  rename_i hs
  have hne : c.hs ≠ .done := by
    rw [not_not.mp hs]
    rintro ⟨⟩
  split
  · exact error_journaled hc _
  · refine decoding_journaled hc fun ch _ => ?_
    dsimp only
    split
    · exact ok_journaled ht (close_evolves hc _ _)
    · exact ok_journaled ht (Calm.handshake (j := c.journal p a r) hne (by rintro ⟨⟩)).evolves

/-- A refused HELLO closes the connection. -/
theorem rejectHandshake_journaled (hc : c.closed = none) (ht : f.frameType ≠ .data)
    (code : RejectCode) (message : String) :
    Journaled p a r c f (c.rejectHandshake code message, .ok ()) := by
  refine ok_journaled ht (.inr ?_)
  exact closeInternal_closing (c := c.pushPriority _) hc hc rfl rfl rfl rfl rfl (fun _ => rfl)
    (List.append_nil _).symm (.inl rfl) _ _

omit [ThirdParty] in
/-- The handshake ends with the identity `k`. -/
theorem authenticated_evolves {k : KeyId} {v : UInt16} (hA : A k) (hc : c.closed = none)
    (hs : c.hs ≠ .done) (hcfg : c'.cfg = c.cfg) (hn : c'.nonceS = c.nonceS) (hs' : c'.hs = .done)
    (hc' : c'.closed = c.closed) (hnext : c'.nextStreamId = c.nextStreamId)
    (hlast : c'.lastPeerStreamId = c.lastPeerStreamId) (hstr : c'.streams = c.streams)
    (hev : c'.events = c.events ++ [.authenticated k v]) :
    Evolves A (c.journal p a r) (c'.journal p a r) := by
  have h := Calm.authenticated (j := c.journal p a r) (v := v) hA hc hs
  convert h.evolves using 1
  have hline : c'.line a r = c.line a r := by
    funext i
    simp [line, hstr]
  simp only [journal, Journal.tell, known, peerOpensOdd, hline, hcfg, hn, hs', hc', hnext, hlast,
    hev, List.append_assoc]
  rfl

theorem onHello_journaled (hc : c.closed = none) (ht : f.frameType = .hello) (now : Instant) :
    Journaled p a r c f (c.onHello now f) := by
  have hne : f.frameType ≠ .data := by
    rw [ht]
    rintro ⟨⟩
  unfold onHello
  split
  · exact error_journaled hc _
  rename_i hs
  have hdone : c.hs ≠ .done := by
    rw [not_not.mp hs]
    rintro ⟨⟩
  split
  · exact error_journaled hc _
  rename_i verifier params reverify hrole
  refine decoding_journaled hc fun hello hd => ?_
  split
  · exact rejectHandshake_journaled hc hne _ _
  rename_i version _
  split
  · exact rejectHandshake_journaled hc hne _ _
  rename_i pk hpk
  dsimp only
  split
  · exact rejectHandshake_journaled hc hne _ _
  rename_i hv
  refine ok_journaled hne (authenticated_evolves (k := hello.keyId) (v := version) (fun _ => ?_) hc
    hdone rfl rfl rfl rfl rfl rfl rfl rfl)
  exact ⟨verifier, params, reverify, hello, pk, hrole, ht, hd, rfl, hpk, by simpa using hv⟩

theorem onWelcome_journaled (hc : c.closed = none) (ht : f.frameType ≠ .data) (now : Instant) :
    Journaled p a r c f (c.onWelcome now f) := by
  unfold onWelcome
  split
  · exact error_journaled hc _
  rename_i hcond
  obtain ⟨hclient, hs⟩ := not_or.mp hcond
  have hdone : c.hs ≠ .done := by
    rw [not_not.mp hs]
    rintro ⟨⟩
  refine decoding_journaled hc fun w _ => ?_
  split
  · exact error_journaled hc _
  split
  · exact error_journaled hc _
  · rename_i keyId _
    exact ok_journaled ht (authenticated_evolves (k := keyId) (v := w.version)
      (fun h => absurd h hclient) hc hdone rfl rfl rfl rfl rfl rfl rfl rfl)

theorem onReject_journaled (hc : c.closed = none) (ht : f.frameType ≠ .data) :
    Journaled p a r c f (c.onReject f) := by
  unfold onReject
  split
  · exact error_journaled hc _
  rename_i hcond
  have hdone : c.hs ≠ .done := by
    rw [not_not.mp (not_or.mp hcond).2]
    rintro ⟨⟩
  refine decoding_journaled hc fun rej _ => ok_journaled ht (.inr ?_)
  exact closeInternal_closing (c := c.pushEvent _) hc hc rfl rfl rfl rfl rfl (fun _ => rfl) rfl
    (.inr ⟨hdone, _, _, rfl⟩) _ _

theorem onStreamOpen_journaled (hc : c.closed = none) (hs : c.hs = .done)
    (ht : f.frameType ≠ .data) : Journaled p a r c f (c.onStreamOpen f) := by
  unfold onStreamOpen
  dsimp only
  split
  · exact error_journaled hc _
  rename_i hcond
  obtain ⟨hpar, hgt⟩ := not_or.mp hcond
  have hpar : (f.streamId % 2 == 1) = c.peerOpensOdd := by simpa using hpar
  refine decoding_journaled hc fun cls _ => ?_
  split
  · exact error_journaled hc _
  refine ok_journaled ht ?_
  generalize hc' : pushEvent _ _ = c'
  have hk : ∀ i, c'.known i = if (i % 2 == 1) == c.peerOpensOdd then decide (i ≤ f.streamId)
      else decide (i < c.nextStreamId) := fun i => by
    subst hc'
    rfl
  refine use_evolves (t := Stream.new cls c.paramsInForce.initialWindow.toNat true)
    (q := [.streamOpened f.streamId cls]) hs hc ?_ (fun i h => ?_) ?_ ?_ rfl rfl ?_ ?_ ?_ ?_ ?_
    (.inr ⟨cls, rfl⟩)
  · simp [known, hpar, hgt]
  · rw [hk]
    unfold known at h
    split at h <;> rename_i hodd <;> simp only [hodd]
    · have hle : i ≤ c.lastPeerStreamId := by simpa using h
      simpa using Nat.le_trans hle (Nat.le_of_not_le hgt)
    · simpa using h
  · simp [hk, hpar]
  all_goals
    subst hc'
    rfl

omit [ThirdParty] in
/-- A message came in whole. -/
theorem arrived_evolves (h : c.streams.lookup id = some s) (ho : s.remoteOpen = true) {m : Bytes}
    {a' : StreamId → List Bytes} (ha : a' = Function.update a id (a id ++ [m]))
    (ht : t.remoteOpen = true) (hi : t.inbox.map (·.1) = s.inbox.map (·.1) ++ [m])
    (reports : List (StreamId × Nat × Nat)) :
    Evolves A (c.journal p a r) ((if s.inbox.isEmpty then
      { c.setStream id t with reports }.pushEvent (.readable id)
      else { c.setStream id t with reports }).journal p a' r) := by
  have hset : (c.setStream id t).journal p a' r = _ := journal_setStream (a := a) (r := r) id t
    (fun i hi => by rw [ha, Function.update_of_ne hi]) (fun _ _ => rfl)
  rw [ht, hi, show a' id = a id ++ [m] by rw [ha, Function.update_self]] at hset
  have hturn := turn_calm (A := A) (p := p) (a := a) (r := r) h (q := if s.inbox.map (·.1) = [] then
    [.readable id] else []) (l := ⟨some (true, s.inbox.map (·.1) ++ [m]), a id ++ [m], r id⟩)
    (by rw [ho]; exact .arrived)
  split
  · rename_i hin
    rw [if_pos (by simpa using hin), ← hset, ← journal_pushEvent] at hturn
    exact hturn.evolves
  · rename_i hin
    rw [if_neg (by simpa using hin), Journal.tell_nil, ← hset] at hturn
    exact hturn.evolves

theorem onData_journaled (hc : c.closed = none) (ht : f.frameType = .data) :
    Journaled p a r c f (c.onData f) := by
  unfold onData
  dsimp only
  split
  · exact error_journaled hc _
  rename_i data more hparse
  refine withStream_journaled hc fun s hs => ?_
  split
  · exact error_journaled hc _
  rename_i ho
  have ho : s.remoteOpen = true := by simpa using ho
  split
  · exact error_journaled hc _
  rename_i recv _
  obtain ⟨reports, hrep⟩ := report_eq (c := c.setStream f.streamId { s with recv }) f.streamId
    (asU32 f.payload.length) 0
  rw [hrep]
  split
  · exact setStream_error_journaled hc hs _ _ _
  have hset : ({ c.setStream f.streamId { s with recv } with reports } : Connection).setStream
      f.streamId (deliverData s recv (asU32 f.payload.length) data more) =
      { c.setStream f.streamId (deliverData s recv (asU32 f.payload.length) data more) with
        reports } := by
    simp [setStream, AList.insert_insert]
  rw [hset]
  have hcomp : c.completes f = if more then none else some (f.streamId, s.partialMsg ++ data) := by
    unfold completes
    rw [if_pos ht, hparse, hs]
    cases more <;> rfl
  change Evolves _ _ (Connection.journal _ p (Watch.note a (c.completes f)) r)
  rw [hcomp]
  cases more with
  | true => exact .of_eq (journal_setStream_same hs rfl rfl)
  | false =>
    simp only [Bool.not_false, Bool.true_and]
    refine arrived_evolves (m := s.partialMsg ++ data) hs ho rfl ?_ ?_ reports
    · exact ho
    · simp [deliverData]

theorem onFin_journaled (hc : c.closed = none) (ht : f.frameType ≠ .data) :
    Journaled p a r c f (c.onFin f) := by
  unfold onFin
  dsimp only
  refine withStream_journaled hc fun s hs => ?_
  split
  · exact error_journaled hc _
  rename_i ho
  have ho : s.remoteOpen = true := by simpa using ho
  split
  · exact setStream_error_journaled hc hs _ c.reports _
  refine ok_journaled ht ?_
  have hset := journal_setStream (c := c) (p := p) (a := a) (r := r) f.streamId
    { s with remoteOpen := false } (fun _ _ => rfl) (fun _ _ => rfl)
  split
  · rename_i hin
    rw [List.isEmpty_iff] at hin
    refine finishedStream_evolves hset (turn_calm hs ?_)
    rw [ho, hin]
    exact .ended
  · rename_i hin
    rw [hset]
    have hturn : Line.Turn f.streamId ⟨some (s.remoteOpen, s.inbox.map (·.1)), a f.streamId, r f.streamId⟩
        ⟨some (false, s.inbox.map (·.1)), a f.streamId, r f.streamId⟩ [] := by
      rw [ho]
      exact .fin (by simpa using hin)
    have h := turn_calm (A := c.Admits f) (p := p) hs hturn
    rw [Journal.tell_nil] at h
    exact h.evolves

theorem onRst_journaled (hc : c.closed = none) (ht : f.frameType ≠ .data) :
    Journaled p a r c f (c.onRst f) := by
  refine decoding_journaled hc fun rst _ => withStream_journaled hc fun s hs => ok_journaled ht ?_
  rw [journal_pushEvent, journal_dropStream]
  exact (turn_calm hs .reset).evolves

theorem onWindowUpdate_journaled (hc : c.closed = none) (ht : f.frameType ≠ .data) :
    Journaled p a r c f (c.onWindowUpdate f) := by
  refine decoding_journaled hc fun wu _ => withStream_journaled hc fun s hs => ?_
  dsimp only
  split
  · refine ok_journaled ht ?_
    rw [journal_pushEvent,
      journal_setStream (a := a) (r := r) f.streamId _ (fun _ _ => rfl) (fun _ _ => rfl)]
    exact (turn_calm hs .writable).evolves
  · exact ok_journaled ht (.of_eq (journal_setStream_same hs rfl rfl))

theorem dispatch_journaled (hc : c.closed = none) (now : Instant) :
    Journaled p a r c f (c.dispatch now f) := by
  have hne : ∀ {x : FrameType}, f.frameType = x → x ≠ .data → f.frameType ≠ .data := by
    rintro _ rfl h
    exact h
  unfold dispatch
  split
  · cases ht : f.frameType with
    | challenge => exact onChallenge_journaled hc (hne ht (by decide))
    | hello => exact onHello_journaled hc ht now
    | welcome => exact onWelcome_journaled hc (hne ht (by decide)) now
    | reject => exact onReject_journaled hc (hne ht (by decide))
    | goaway =>
      exact decoding_journaled hc fun g _ =>
        ok_journaled (hne ht (by decide)) (close_evolves hc _ _)
    | ping =>
      exact afterAuth_journaled hc fun _ => decoding_journaled hc fun _ _ =>
        ok_journaled (hne ht (by decide)) .refl
    | pong =>
      refine afterAuth_journaled hc fun _ => decoding_journaled hc fun _ _ =>
        ok_journaled (hne ht (by decide)) (.of_eq ?_)
      split <;> rfl
    | «open» | data | fin | rst | windowUpdate => exact error_journaled hc _
  · refine afterAuth_journaled hc fun hs => ?_
    cases ht : f.frameType with
    | «open» => exact onStreamOpen_journaled hc hs (hne ht (by decide))
    | data => exact onData_journaled hc ht
    | fin => exact onFin_journaled hc (hne ht (by decide))
    | rst => exact onRst_journaled hc (hne ht (by decide))
    | windowUpdate => exact onWindowUpdate_journaled hc (hne ht (by decide))
    | challenge | hello | welcome | reject | ping | pong | goaway => exact error_journaled hc _

/-- The identities that reading `bytes` may end the handshake with. -/
def AdmitsBytes (c : Connection) (bytes : Bytes) (k : KeyId) : Prop :=
  ∃ f, Frame.parse bytes = .ok f ∧ c.Admits f k

theorem recv_evolves (now : Instant) (bytes : Bytes) :
    Evolves (c.AdmitsBytes bytes) (c.journal p a r)
      ((c.recv now bytes).1.journal p (Watch.note a (c.arrival now bytes)) r) := by
  unfold arrival
  split
  · rename_i hc
    have h : c.recv now bytes = (c.observe now, .ok ()) := by
      unfold recv
      dsimp only
      rw [if_pos (by simpa [observe] using hc)]
    rw [h]
    exact .refl
  rename_i hc
  have hc : c.closed = none := by simpa using hc
  cases hf : Frame.parse bytes with
  | error e =>
    have h : c.recv now bytes = (c.observe now).fail e := by
      unfold recv
      dsimp only
      rw [if_neg (by simp [observe, hc]), hf]
    rw [h]
    exact .inr (closeInternal_closing (c := c.observe now) (q := []) hc hc rfl rfl rfl rfl rfl
      (fun _ => rfl) (by simp [observe]) (.inl rfl) _ _)
  | ok f =>
    have h : c.recv now bytes = (c.observe now).recvFrame (c.observe now).timers.lastNow f := by
      unfold recv
      dsimp only
      rw [if_neg (by simp [observe, hc]), hf]
    rw [h]
    unfold recvFrame
    dsimp only
    generalize hc₁ : ({ c.observe now with
      timers := (c.observe now).timers.onRecv (c.observe now).timers.lastNow } : Connection) = c₁
    have hopen : c₁.closed = none := by
      subst hc₁
      exact hc
    have hj : Journaled p a r c f (c₁.dispatch (c.observe now).timers.lastNow f) := by
      have hd := dispatch_journaled (p := p) (a := a) (r := r) (f := f) hopen
        (c.observe now).timers.lastNow
      subst hc₁
      exact hd
    unfold Journaled at hj
    split
    · rename_i c₂ heq
      rw [heq] at hj
      exact hj.mono fun k hk => ⟨f, hf, hk⟩
    · rename_i c₂ e heq
      rw [heq] at hj
      exact .inr (hj _)

theorem handleTimeout_evolves {now : Instant} {stillValid : Nat → KeyId → Bool} {fuel : Nat}
    (H : c.handleTimeout now stillValid fuel = some c') :
    Evolves A (c.journal p a r) (c'.journal p a r) := by
  unfold handleTimeout at H
  cases hc : c.closed with
  | none => exact timeoutLoop_evolves (c := c.observe now) hc H
  | some reason =>
    cases fuel with
    | zero => cases H
    | succ fuel =>
      unfold timeoutLoop at H
      rw [if_pos (by simp [observe, hc])] at H
      cases H
      exact .refl

end Connection

/-! ## Runs -/

section
variable [ThirdParty]

/-- The identities an input may end the handshake with. -/
def Input.Admits (c : Connection) : Input → KeyId → Prop
  | .recv _ bytes => c.AdmitsBytes bytes
  | _ => fun _ => False

end

namespace Watch

open Journal (Contract Evolves Tells)

variable [ThirdParty] {w w' : Watch} {x : Input} {cfg : Config} {now : Instant}
  {inputs : List Input}

theorem call_evolves {A : KeyId → Prop} (hs : w.node.conn.Sound) (k : Call) :
    Evolves A w.journal { w with node := w.node.call k }.journal := by
  obtain ⟨P, _, _, G⟩ := hs
  cases k with
  | «open» cls => exact Connection.open_evolves G cls
  | send id msg compress =>
    have h := Connection.send_evolves (c := w.node.conn) (p := w.node.polled) (a := w.arrived)
      (r := w.node.taken) id msg compress
    refine .of_eq ?_
    simp only [Node.call]
    split <;> exact h
  | recvMsg id =>
    have h := Connection.recvMsg_evolves (c := w.node.conn) (p := w.node.polled) (a := w.arrived)
      (r := w.node.taken) (A := A) id
    simp only [Node.call]
    split <;> rename_i heq <;> rw [heq] at h <;> exact h
  | finish id => exact Connection.finish_evolves id
  | reset id code => exact Connection.reset_evolves id code
  | setClass id cls => exact .of_eq (Connection.setClass_evolves id cls)
  | close reason =>
    cases hc : w.node.conn.closed with
    | none => exact Connection.close_evolves hc _ _
    | some _ =>
      refine .of_eq ?_
      simp only [Node.call, Connection.close, Connection.closeInternal, hc]
      rfl
  | pollEvent =>
    refine .of_eq ?_
    simp only [journal, Node.call, Connection.pollEvent]
    split
    · simp
    · rename_i e rest heq
      simp only [Connection.journal, heq, Option.toList_some, List.append_assoc,
        List.singleton_append]
      rfl
  | setBytesSink => exact .refl

/-- Every input evolves the journal. -/
theorem face_evolves (hs : w.node.conn.Sound) (S : w.node.conn.Synced) (H : w.face x = some w') :
    Evolves (x.Admits w.node.conn) w.journal w'.journal := by
  obtain ⟨node, hnode, rfl⟩ := Option.map_eq_some_iff.mp H
  cases x with
  | call k =>
    cases hnode
    exact call_evolves hs k
  | handleTimeout now stillValid fuel =>
    obtain ⟨conn, hconn, rfl⟩ := Option.map_eq_some_iff.mp hnode
    exact Connection.handleTimeout_evolves hconn
  | pollTransmit =>
    cases hnode
    exact Connection.pollTransmit_evolves S
  | recv now bytes =>
    cases hnode
    exact Connection.recv_evolves now bytes

theorem face_node (H : w.face x = some w') : w.node.face x = some w'.node := by
  obtain ⟨node, hnode, rfl⟩ := Option.map_eq_some_iff.mp H
  exact hnode

theorem exposed_node (H : exposed cfg now inputs = some w) :
    Node.exposed cfg now inputs = some w.node := by
  obtain ⟨_, h, rfl⟩ := Automaton.run_simulation (R := fun (w : Watch) n => w.node = n)
    (p := fun _ => True) (f := Node.face) (fun {w n x w'} hw _ H => ⟨w'.node, hw ▸ face_node H, rfl⟩)
    (fun _ _ => trivial) rfl H
  exact h

theorem contract_new (cfg : Config) (now : Instant) :
    Contract (Watch.new (.new cfg now)).journal := by
  have hnew : (Connection.new cfg now).events = [] ∧ (Connection.new cfg now).streams = ∅ ∧
      (Connection.new cfg now).hs ≠ .done := by
    unfold Connection.new
    dsimp only
    split <;> exact ⟨rfl, rfl, by simp [Connection.fresh]⟩
  obtain ⟨hev, hstr, hs⟩ := hnew
  have htold : (Watch.new (.new cfg now)).journal.told = [] := by
    simp [journal, Connection.journal, Watch.new, Node.new, hev]
  have hline : ∀ id, (Watch.new (.new cfg now)).journal.lines id = .unused := fun id => by
    simp [journal, Connection.journal, Connection.line, Watch.new, Node.new, hstr, Line.unused]
  exact {
    order := by simp [htold]
    first := fun h => absurd h hs
    early := by simp [htold]
    waiting := fun _ _ => htold
    isOpen := by simp [htold]
    ready := fun id h => by simp [hline, Line.unused] at h
    known := by simp [htold]
    fits := fun id => by
      rw [hline, htold]
      exact ⟨by simp, by simp [Line.unused], by simp [Line.unused], by simp⟩
    unused := fun id _ => hline id }

theorem exposed_contract (H : exposed cfg now inputs = some w) : Contract w.journal := by
  induction inputs using List.reverseRecOn generalizing w with
  | nil =>
    cases H
    exact contract_new cfg now
  | append_singleton inputs x ih =>
    obtain ⟨w₁, h₁, H⟩ := Automaton.run_append_eq_some.mp H
    rw [Automaton.run_singleton] at H
    have hn := exposed_node h₁
    exact (face_evolves (Node.exposed_sound hn) (Node.exposed_synced hn) H).contract (ih h₁)

/-- The messages waiting on a stream, with their sizes on the wire. -/
def inbox (w : Watch) (id : StreamId) : List (Bytes × Nat) :=
  ((w.node.conn.streams.lookup id).map (·.inbox)).getD []

end Watch

/-! ## The contract of events -/

namespace Event

variable {es es' : List Event} {e : Event} {id : StreamId}

theorem before_of_append (h : (es ++ e :: es').Pairwise Before) : ∀ b ∈ es', e.Before b :=
  (List.pairwise_cons.mp (List.pairwise_append.mp h).2.1).1

/-- At most one event of a kind that never comes twice. -/
theorem countP_le_one {q : Event → Bool} {l : List Event} (h : l.Pairwise Before)
    (hq : ∀ a b, q a = true → q b = true → ¬a.Before b) : l.countP q ≤ 1 := by
  induction l with
  | nil => simp
  | cons a l ih =>
    obtain ⟨ha, hl⟩ := List.pairwise_cons.mp h
    by_cases hqa : q a = true
    · have hz : l.countP q = 0 := by
        refine List.countP_eq_zero.mpr fun b hb hqb => ?_
        exact hq a b hqa hqb (ha b hb)
      simp [hqa, hz]
    · simpa [hqa] using ih hl

end Event

section
variable [ThirdParty]

/-- The events of a connection, in the order `poll_event` yields them, keep the rules its
application relies on. -/
structure EventContract (w : Watch) : Prop where
  authenticated : ∀ es k v es', w.told = es ++ .authenticated k v :: es' →
    es = [] ∧ ∀ e ∈ es', e.isAuthenticated = false
  first : ∀ e ∈ w.told, e.streamId.isSome = true → ∃ k v es, w.told = .authenticated k v :: es
  opened : ∀ id, w.told.countP (fun e => e.isOpening && e.streamId == some id) ≤ 1
  finished : ∀ id, w.told.countP (fun e => e.isFinished && e.streamId == some id) ≤ 1
  reset : ∀ es id code es', w.told = es ++ .reset id code :: es' →
    ∀ e ∈ es', e.streamId ≠ some id
  consumed : ∀ id, .finished id ∈ w.told → w.arrived id = w.node.taken id
  closed : ∀ es reason es', w.told = es ++ .closed reason :: es' → es' = []

/-- The events `es` of one input: `Readable` when an inbox stops being empty, and on a close
exactly one `Reset` for each stream still tracked. -/
structure EventStep (w w' : Watch) (es : List Event) : Prop where
  told : w'.told = w.told ++ es
  readable : ∀ id, w.inbox id = [] → w'.inbox id ≠ [] → .readable id ∈ es
  resets : w.node.conn.closed = none → w'.node.conn.closed ≠ none → ∀ id,
    es.filter (fun e => e.isReset && e.streamId == some id) =
      if (w.node.conn.streams.lookup id).isSome then [.reset id rstCodeConnectionClosed] else []

omit [ThirdParty] in
theorem Journal.Contract.eventContract {w : Watch} (C : w.journal.Contract) : EventContract w := by
  have horder : w.told.Pairwise Event.Before := C.order
  refine ⟨fun es k v es' h => ?_, fun e he hid => ?_, fun id => ?_, fun id => ?_,
    fun es id code es' h e he => ?_, fun id h => (C.fits id).consumed h, fun es reason es' h => ?_⟩
  · rw [h] at horder
    refine ⟨?_, fun e he => (Event.before_of_append horder e he).authenticated⟩
    cases es with
    | nil => rfl
    | cons a es =>
      have hb := (List.pairwise_cons.mp horder).1 (.authenticated k v) (by simp)
      cases hb.authenticated
  · by_cases hs : w.journal.hs = .done
    · exact C.first hs
    · rw [(C.early hs e he).1] at hid
      cases hid
  · refine Event.countP_le_one horder fun a b ha hb h => ?_
    simp only [Bool.and_eq_true, beq_iff_eq] at ha hb
    rw [(h.same id ha.2 hb.2).2.1] at hb
    cases hb.1
  · refine Event.countP_le_one horder fun a b ha hb h => ?_
    simp only [Bool.and_eq_true, beq_iff_eq] at ha hb
    rw [(h.same id ha.2 hb.2).2.2 ha.1] at hb
    cases hb.1
  · rw [h] at horder
    intro hid
    cases ((Event.before_of_append horder e he).same id rfl hid).1
  · rw [h] at horder
    refine List.eq_nil_iff_forall_not_mem.mpr fun b hb => ?_
    cases (Event.before_of_append horder b hb).closed

omit [ThirdParty] in
theorem Journal.Tells.eventStep {A : KeyId → Prop} {w w' : Watch} {es : List Event}
    (T : Journal.Tells A w.journal w'.journal es) : EventStep w w' es := by
  have hwait : ∀ (w : Watch) id, w.journal.waiting id = (w.inbox id).map (·.1) := fun w id => by
    simp only [Watch.journal, Connection.journal, Journal.waiting, Connection.line, Watch.inbox]
    cases w.node.conn.streams.lookup id <;> rfl
  refine ⟨T.told, fun id h h' => T.readable id ?_ ?_, fun h h' id => ?_⟩
  · rw [hwait, h]
    rfl
  · rw [hwait]
    simpa using h'
  · rw [T.resets h h' id]
    simp [Watch.journal, Connection.journal, Connection.line]

/-- Whatever the application calls and the peer sends, the events keep their contract in every
state reached, and so does every further input. -/
theorem event_contract {cfg : Config} {now : Instant} {inputs : List Input} {w : Watch}
    (H : Watch.exposed cfg now inputs = some w) :
    EventContract w ∧ ∀ x w', w.face x = some w' → ∃ es, EventStep w w' es := by
  refine ⟨(Watch.exposed_contract H).eventContract, fun x w' hx => ?_⟩
  have hn := Watch.exposed_node H
  obtain ⟨es, T⟩ := (Watch.face_evolves (Node.exposed_sound hn) (Node.exposed_synced hn) hx).tells
  exact ⟨es, T.eventStep⟩

end

namespace Sample

/-- A client is let in, opens a stream, sends a message on it and finishes; the server reads it. -/
def served : List Input :=
  admitted ++ [.recv 0 (Frame.mk 1 .data [0, 7, 8]).encode, .recv 0 (Frame.mk 1 .fin []).encode,
    .call .pollEvent, .call (.recvMsg 1)]

end Sample

open scoped Sample in
/-- The server hears of the key, the stream, its message and its end, in this order. -/
theorem event_contract_served : ∃ w k v, Watch.exposed Sample.setup.server 0 Sample.served = some w ∧
    w.told = [.authenticated k v, .streamOpened 1 .interactive, .readable 1, .finished 1] ∧
    w.arrived 1 = [[7, 8]] ∧ EventContract w := by
  have h : (Watch.exposed Sample.setup.server 0 Sample.served).any (fun w =>
    decide (w.arrived 1 = [[7, 8]]) && decide (w.told.tail =
      [.streamOpened 1 .interactive, .readable 1, .finished 1])) = true := by decide +kernel
  obtain ⟨w, hw, h⟩ := (Option.any_eq_true _ _).mp h
  rw [Bool.and_eq_true, decide_eq_true_eq, decide_eq_true_eq] at h
  have C := (event_contract hw).1
  obtain ⟨k, v, es, htold⟩ := C.first (.finished 1)
    (List.mem_of_mem_tail (by rw [h.2]; simp)) rfl
  rw [htold] at h
  exact ⟨w, k, v, hw, by rw [htold, ← h.2]; rfl, h.1, C⟩

end TunnelWeaver.Mux
