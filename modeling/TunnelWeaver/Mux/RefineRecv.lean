import TunnelWeaver.Mux.RefineCalls

/-! Reception as a step of the core: a frame a `Connection` accepts is one `Endpoint` consumes, and
any other closes the connection. -/

namespace TunnelWeaver.Mux.Connection

open Endpoint (Silent Act Step)

section
variable {P : Params} {c c' : Connection} {id : StreamId} {s s' : Stream}

/-- `c'` is `c` with changes that closing the connection would undo. -/
structure Frozen (c c' : Connection) : Prop where
  closed : c'.closed = none
  server : c'.core.server = c.core.server
  hs : c'.hs = c.hs
  next : c'.nextStreamId = c.nextStreamId
  lastPeer : c'.lastPeerStreamId = c.lastPeerStreamId
  finished : c'.core.finished = c.core.finished

theorem Frozen.refl (h : c.closed = none) : Frozen c c := ⟨h, rfl, rfl, rfl, rfl, rfl⟩

theorem view_of_lookup (h : c.streams.lookup id = some s) : c.core.view id = .live s.recvHalf :=
  Endpoint.view_live (core_streams h)

theorem streamMut_none (h : c.streamMut id = .ok none) :
    c.core.streams id = none ∧ c.core.Known id := by
  unfold streamMut at h
  split at h
  · cases h
  · rename_i hl
    split at h
    · rename_i hk
      exact ⟨core_streams_none hl, known_iff.mp hk⟩
    · cases h

theorem streamMut_some (h : c.streamMut id = .ok (some s)) : c.streams.lookup id = some s := by
  unfold streamMut at h
  split at h
  · rename_i hl
    cases h
    exact hl
  · split at h <;> cases h

theorem Wf.report (W : Wf P c) (id : StreamId) (a b : Nat) : Wf P (c.report id a b) := by
  obtain ⟨r, h⟩ := report_eq (c := c) id a b
  rw [h]
  exact W.of rfl rfl rfl rfl (fun h => h) W.active

theorem deliverData_recvHalf (recv : RecvWindow) (n : Nat) (data : Bytes) (more : Bool) :
    (deliverData s recv n data more).recvHalf = s.recvHalf.deliver recv n data more := by
  cases more <;> rfl

theorem deliverData_sendHalf (recv : RecvWindow) (n : Nat) (data : Bytes) (more : Bool) :
    (deliverData s recv n data more).sendHalf = s.sendHalf := by
  cases more <;> rfl

end

variable [ThirdParty] {P : Params} {c c' : Connection} {id : StreamId} {s s' : Stream} {f : Frame}

/-- A client reads the parameters `P` in a WELCOME it accepts. -/
def Announces (P : Params) (c : Connection) (f : Frame) : Prop :=
  c.core.server = false → c.hs = .helloSent → f.frameType = .welcome →
    ∀ w, ThirdParty.welcome.decode f.payload = some w → checkWelcome w = .ok () → w.params = P

/-- What a frame handler does: the core consumes the frame, or the connection is about to close. -/
def Handled (P : Params) (c : Connection) (f : Frame) (o : Outcome) : Prop :=
  Wf P o.1 ∧ match o.2 with
    | .ok () => Act P c.core (.consume f) o.1.core
    | .error _ => Frozen c o.1

theorem Handled.error (W : Wf P c) (hc : c.closed = none) (e : ProtocolError) :
    Handled P c f (c, .error e) := ⟨W, .refl hc⟩

theorem Handled.decoding {α : Type} {codec : Codec α} {k : α → Outcome} (W : Wf P c)
    (hc : c.closed = none) (hk : ∀ a, codec.decode f.payload = some a → Handled P c f (k a)) :
    Handled P c f (c.decoding codec f k) := by
  unfold Connection.decoding
  split
  · exact .error W hc _
  · rename_i a ha
    exact hk a ha

theorem Handled.afterAuth {k : Connection → Outcome} (W : Wf P c) (hc : c.closed = none)
    (hk : c.core.Ready → Handled P c f (k c)) : Handled P c f (c.afterAuth k) := by
  unfold Connection.afterAuth
  split
  · rename_i hs
    exact hk ⟨hs, by simp [core, hc]⟩
  · exact .error W hc _

/-- The frame makes the connection close. -/
theorem Act.closing {c₁ : Connection} {r : CloseReason} {b : Bool} (hc : c₁.closed = none)
    (H : Step P c.core (.consume f) (c₁.core.shut (c₁.dropQueues r b).priorityOut)) :
    Act P c.core (.consume f) (c₁.closeInternal r b).core := by
  rw [core_closeInternal hc]
  exact H.act

/-! ## Handshake frames -/

theorem onChallenge_handled (W : Wf P c) (hc : c.closed = none) (ht : f.frameType = .challenge) :
    Handled P c f (c.onChallenge f) := by
  have hcl : c.core.closed = false := by simp [core, hc]
  unfold onChallenge
  split
  · exact .error W hc _
  · rename_i hs
    have hs : c.hs = .awaitChallenge := Decidable.not_not.mp hs
    split
    · exact .error W hc _
    · refine .decoding W hc fun ch _ => ?_
      dsimp only
      split
      · rename_i e _
        refine ⟨W.closeInternal, Act.closing hc (r := .withMessage .rejected ("signing failed: " ++ e))
          (b := true) (Step.giveUp hcl hs ht)⟩
      · refine ⟨⟨(by rintro ⟨⟩), W.announced, fun _ => rfl, fun h => ?_, W.active⟩,
          (Step.challenge hcl hs ht).act⟩
        have := W.timers h
        rw [hs] at this
        cases this

theorem rejectHandshake_handled (W : Wf P c) (hc : c.closed = none) (hs : c.hs = .challengeSent)
    (ht : f.frameType = .hello) (code : RejectCode) (message : String) :
    Handled P c f (c.rejectHandshake code message, .ok ()) := by
  have W₁ : Wf P (c.pushPriority ⟨0, .reject, ThirdParty.reject.encode ⟨code, message⟩⟩) :=
    W.of rfl rfl rfl rfl (fun h => h) W.active
  exact ⟨W₁.closeInternal, Act.closing (by exact hc)
    (Step.refuse (r := ⟨code, message⟩) (by simp [core, hc]) hs ht)⟩

theorem onHello_handled (W : Wf P c) (hc : c.closed = none) (ht : f.frameType = .hello)
    (now : Instant) : Handled P c f (c.onHello now f) := by
  unfold onHello
  split
  · exact .error W hc _
  · rename_i hs
    have hs : c.hs = .challengeSent := Decidable.not_not.mp hs
    split
    · exact .error W hc _
    · rename_i verifier params interval hrole
      obtain rfl := W.announced _ _ _ hrole
      refine .decoding W hc fun hello _ => ?_
      split
      · exact rejectHandshake_handled W hc hs ht _ _
      · rename_i version hv
        split
        · exact rejectHandshake_handled W hc hs ht _ _
        · dsimp only
          split
          · exact rejectHandshake_handled W hc hs ht _ _
          · have hstep := Step.hello (P := params) (e := c.core) (by simp [core, hc]) hs ht
              (acceptVersion_of_negotiate hv)
            refine ⟨⟨fun _ => rfl, W.announced, (by rintro ⟨⟩), fun _ => rfl, W.active⟩, ?_⟩
            dsimp only [finishHandshake]
            rw [core_pushEvent rfl]
            exact hstep.act

theorem onWelcome_handled (W : Wf P c) (G : c.core.Good P) (hc : c.closed = none)
    (ht : f.frameType = .welcome) (now : Instant) (hP : Announces P c f) :
    Handled P c f (c.onWelcome now f) := by
  unfold onWelcome
  split
  · exact .error W hc _
  · rename_i hcond
    have hs : c.hs = .helloSent := by
      by_contra h
      exact hcond (.inr h)
    refine .decoding W hc fun w hw => ?_
    split
    · exact .error W hc _
    · rename_i hcheck
      obtain rfl := hP (by simpa [core] using fun h => hcond (.inl h)) hs ht w hw hcheck
      split
      · exact .error W hc _
      · have hcontrol : c.core.control = [] := (G.idle fun hr => by
          have := hr.done
          rw [show c.core.hs = .helloSent from hs] at this
          cases this).2
        refine ⟨⟨fun _ => rfl, W.announced, (by rintro ⟨⟩), fun _ => rfl,
          fun i hi => absurd hi (SchedTree.not_active_new _ _ i)⟩, ?_⟩
        have hstep := Step.welcome (P := w.params) (e := c.core) (by simp [core, hc]) hs ht
        dsimp only [finishHandshake]
        rw [core_pushEvent rfl]
        convert hstep.act using 1
        simp only [core, Endpoint.mk.injEq, true_and, and_true]
        exact hcontrol.symm

theorem onReject_handled (W : Wf P c) (hc : c.closed = none) (ht : f.frameType = .reject) :
    Handled P c f (c.onReject f) := by
  unfold onReject
  split
  · exact .error W hc _
  · refine .decoding W hc fun r _ => ?_
    refine ⟨(W.pushEvent _).closeInternal, Act.closing (by exact hc) ?_⟩
    rw [core_pushEvent rfl]
    exact .bye (by simp [core, hc]) (.inr ht)

theorem onGoaway_handled (W : Wf P c) (hc : c.closed = none) (ht : f.frameType = .goaway) :
    Handled P c f (c.onGoaway f) := by
  refine .decoding W hc fun r _ => ?_
  exact ⟨W.closeInternal, Act.closing hc (.bye (by simp [core, hc]) (.inl ht))⟩

/-! ## Keepalive -/

theorem onPing_handled (W : Wf P c) (hr : c.core.Ready) (hc : c.closed = none)
    (ht : f.frameType = .ping) : Handled P c f (c.onPing f) := by
  refine .decoding W hc fun p _ => ⟨W.pushControl _, _, Step.pinged hr (.inl ht), ?_⟩
  exact (Step.conn hr rfl (.inr rfl) ⟨p, Codec.decode_encode ..⟩).silent

theorem onPong_handled (W : Wf P c) (hr : c.core.Ready) (hc : c.closed = none)
    (ht : f.frameType = .pong) : Handled P c f (c.onPong f) := by
  refine .decoding W hc fun p _ => ?_
  split
  · exact ⟨W.of rfl rfl rfl rfl (fun h => h) W.active, (Step.pinged hr (.inr ht)).act⟩
  · exact ⟨W, (Step.pinged hr (.inr ht)).act⟩

/-! ## Stream frames -/

theorem Handled.withStream {k : Stream → Outcome} (W : Wf P c) (hc : c.closed = none)
    (hgone : c.core.streams f.streamId = none → c.core.Known f.streamId →
      Act P c.core (.consume f) c.core)
    (hk : ∀ s, c.streams.lookup f.streamId = some s → Handled P c f (k s)) :
    Handled P c f (c.withStream f.streamId k) := by
  unfold Connection.withStream
  split
  · exact .error W hc _
  · rename_i h
    obtain ⟨hs, hknown⟩ := streamMut_none h
    exact ⟨W, hgone hs hknown⟩
  · rename_i s h
    exact hk s (streamMut_some h)

theorem onStreamOpen_handled (W : Wf P c) (hr : c.core.Ready) (hc : c.closed = none)
    (ht : f.frameType = .open) (hlt : f.streamId < 2 ^ 32) :
    Handled P c f (c.onStreamOpen f) := by
  unfold onStreamOpen
  dsimp only
  split
  · exact .error W hc _
  · rename_i hid
    obtain ⟨hpar, hlast⟩ := not_or.mp hid
    have hpar : (f.streamId % 2 == 1) = c.core.server := by
      simpa [peerOpensOdd, core] using hpar
    have hlast : c.core.lastPeer < f.streamId := Nat.not_le.mp hlast
    refine .decoding W hc fun cls _ => ?_
    split
    · exact .error W hc _
    · have hstep := Step.opened (P := P) (e := c.core) hr ht hpar hlt hlast
      have hnk : ¬c.core.Known f.streamId := by
        rw [Endpoint.Known, if_pos hpar]
        exact Nat.not_le.mpr hlast
      rw [W.paramsInForce hr.done]
      refine ⟨(Wf.pushEvent ?_ _), ?_⟩
      · refine W.of rfl rfl rfl rfl (fun h => h) fun i hi => ?_
        obtain ⟨hk, ho⟩ := W.active i (SchedTree.Active.of_addStream hi)
        refine ⟨Endpoint.Known.mono (e := c.core) rfl Nat.le.refl (Nat.le_of_lt hlast) hk,
          fun s hs => ?_⟩
        rw [Connection.setStream, Map.lookup_insert_ite] at hs
        split at hs
        · rename_i heq
          exact absurd (heq ▸ hk) hnk
        · exact ho s hs
      · have hset : (c.setStream f.streamId (.new cls P.initialWindow.toNat true)).core = _ :=
          core_setStream
        dsimp only
        rw [core_pushEvent rfl]
        convert hstep.act using 1
        have hstreams := congrArg Endpoint.streams hset
        simp only [core, Endpoint.set, Endpoint.mk.injEq, SchedTree.control_addStream, true_and]
          at hstreams ⊢
        exact ⟨rfl, rfl, rfl, rfl, rfl, hstreams, rfl⟩

theorem framed_gone (hr : c.core.Ready) (ht : f.frameType.isStream = true)
    (hno : f.frameType ≠ .open) (hs : c.core.streams f.streamId = none)
    (hk : c.core.Known f.streamId) (hv : View.step P c.core.server .gone f = some .gone) :
    Act P c.core (.consume f) c.core := by
  have hstep := Step.framed (P := P) (e := c.core) hr ht hno (by rw [Endpoint.view_gone hs hk, hv])
  have hcore : c.core.set f.streamId (c.core.seen f.streamId .gone) = c.core := by
    simp [Endpoint.set, Endpoint.seen, ← hs]
  rw [hcore] at hstep
  exact hstep.act

theorem framed_live {r : RecvHalf} {t : Stream} (hr : c.core.Ready) (ht : f.frameType.isStream = true)
    (hno : f.frameType ≠ .open) (hl : c.streams.lookup f.streamId = some s)
    (hv : View.step P c.core.server (.live s.recvHalf) f = some (.live r))
    (hsend : t.sendHalf = s.sendHalf) (hrecv : t.recvHalf = r) :
    Step P c.core (.consume f) (c.setStream f.streamId t).core := by
  have hstep := Step.framed (P := P) (e := c.core) hr ht hno (by rw [view_of_lookup hl, hv])
  rw [core_setStream, hsend, hrecv]
  simpa [Endpoint.seen, core_streams hl] using hstep

theorem onData_handled (W : Wf P c) (hr : c.core.Ready) (hc : c.closed = none)
    (ht : f.frameType = .data) : Handled P c f (c.onData f) := by
  have hstream : f.frameType.isStream = true := by rw [ht]; rfl
  have hno : f.frameType ≠ .open := by rw [ht]; rintro ⟨⟩
  unfold onData
  dsimp only
  rw [W.paramsInForce hr.done]
  split
  · exact .error W hc _
  · rename_i data more hparse
    refine .withStream W hc (fun hs hk => framed_gone hr hstream hno hs hk ?_) fun s hl => ?_
    · simp only [View.step, ht, hparse]
    · split
      · exact .error W hc _
      · rename_i ho
        split
        · exact .error W hc _
        · rename_i recv hrecv
          have W₁ := (W.setStream hl { s with recv } fun h => h).report f.streamId
            (asU32 f.payload.length) 0
          obtain ⟨r, hrep⟩ := report_eq (c := c.setStream f.streamId { s with recv })
            f.streamId (asU32 f.payload.length) 0
          have ho : s.remoteOpen = true := by simpa using ho
          split
          · refine ⟨W₁, ?_⟩
            dsimp only
            rw [hrep]
            exact ⟨hc, rfl, rfl, rfl, rfl, rfl⟩
          · rename_i hmax
            have hl₁ : ((c.setStream f.streamId { s with recv }).report f.streamId
                (asU32 f.payload.length) 0).streams.lookup f.streamId = some { s with recv } := by
              rw [hrep]
              exact lookup_setStream
            have W₂ := W₁.setStream hl₁
              (deliverData s recv (asU32 f.payload.length) data more) (fun h => by
                cases more <;> exact h)
            have hcore : (((c.setStream f.streamId { s with recv }).report f.streamId
                (asU32 f.payload.length) 0).setStream f.streamId
                  (deliverData s recv (asU32 f.payload.length) data more)).core =
                (c.setStream f.streamId
                  (deliverData s recv (asU32 f.payload.length) data more)).core := by
              simp only [core_setStream, core_report, Endpoint.set, Function.update_idem]
            have hstep := framed_live (P := P) hr hstream hno hl
              (r := s.recvHalf.deliver recv (asU32 f.payload.length) data more) (by
                have hrecv : s.recvHalf.recv.onData (asU32 f.payload.length) = some recv := hrecv
                have ho : s.recvHalf.remoteOpen = true := ho
                have hmax : ¬P.maxMessage.toNat < s.recvHalf.partialMsg.length + data.length := hmax
                simp [View.step, ht, hparse, RecvHalf.onData, ho, hrecv, hmax])
              (deliverData_sendHalf ..) (deliverData_recvHalf ..)
            rw [← hcore] at hstep
            split
            · refine ⟨W₂.pushEvent _, ?_⟩
              dsimp only
              rw [core_pushEvent rfl]
              exact hstep.act
            · exact ⟨W₂, hstep.act⟩

theorem onFin_handled (W : Wf P c) (hr : c.core.Ready) (hc : c.closed = none)
    (ht : f.frameType = .fin) : Handled P c f (c.onFin f) := by
  have hstream : f.frameType.isStream = true := by rw [ht]; rfl
  have hno : f.frameType ≠ .open := by rw [ht]; rintro ⟨⟩
  unfold onFin
  dsimp only
  refine .withStream W hc (fun hs hk => framed_gone hr hstream hno hs hk ?_) fun s hl => ?_
  · simp only [View.step, ht]
  · have W₁ := W.setStream hl { s with remoteOpen := false } fun h => h
    split
    · exact .error W hc _
    · rename_i ho
      split
      · exact ⟨W₁, hc, rfl, rfl, rfl, rfl, rfl⟩
      · rename_i hp
        have hstep := framed_live (P := P) (t := { s with remoteOpen := false }) hr hstream hno hl
          (r := { s.recvHalf with remoteOpen := false }) (by
            have ho : s.remoteOpen = true := by simpa using ho
            have hp : s.partialMsg = [] := by simpa using hp
            have ho : s.recvHalf.remoteOpen = true := ho
            have hp : s.recvHalf.partialMsg = [] := hp
            simp [View.step, ht, RecvHalf.onFin, ho, hp]) rfl rfl
        split
        · rename_i hi
          exact ⟨W₁.finishedStream, _, hstep,
            finishedStream_silent lookup_setStream rfl (List.isEmpty_iff.mp hi)⟩
        · exact ⟨W₁, hstep.act⟩

theorem onRst_handled (W : Wf P c) (hr : c.core.Ready) (hc : c.closed = none)
    (ht : f.frameType = .rst) : Handled P c f (c.onRst f) := by
  have hstream : f.frameType.isStream = true := by rw [ht]; rfl
  have hno : f.frameType ≠ .open := by rw [ht]; rintro ⟨⟩
  refine .decoding W hc fun rst hrst => ?_
  refine .withStream W hc (fun hs hk => framed_gone hr hstream hno hs hk ?_) fun s hl => ?_
  · simp only [View.step, ht, hrst, Option.map_some]
  · refine ⟨W.dropStream.pushEvent _, ?_⟩
    dsimp only
    rw [core_pushEvent rfl, core_dropStream hl]
    refine (Step.framed (v := .gone) hr hstream hno ?_).act
    simp only [View.step, ht, view_of_lookup hl, hrst, Option.map_some]

theorem onWindowUpdate_handled (W : Wf P c) (hr : c.core.Ready) (hc : c.closed = none)
    (ht : f.frameType = .windowUpdate) : Handled P c f (c.onWindowUpdate f) := by
  refine .decoding W hc fun wu hwu => ?_
  have hstep := Step.granted (P := P) (e := c.core) hr ht hwu
  refine .withStream W hc (fun hs _ => ?_) fun s hl => ?_
  · have hcore : c.core.set f.streamId ((c.core.streams f.streamId).map fun x =>
        ({ x.1 with credit := satAdd32 x.1.credit wu.credit.toNat }, x.2)) = c.core := by
      rw [hs, Option.map_none, ← hs, Endpoint.set, Function.update_eq_self]
    rw [hcore] at hstep
    exact hstep.act
  · rw [core_streams hl, Option.map_some] at hstep
    dsimp only
    split
    · refine ⟨Wf.pushEvent (W.setStream hl _ ?_) _, ?_⟩
      · exact fun h => h
      dsimp only
      rw [core_pushEvent rfl, core_setStream]
      exact hstep.act
    · refine ⟨W.setStream hl _ (by exact fun h => h), ?_⟩
      dsimp only
      rw [core_setStream]
      exact hstep.act

/-! ## Any frame -/

theorem dispatch_handled (W : Wf P c) (G : c.core.Good P) (hc : c.closed = none) (now : Instant)
    (hlt : f.streamId < 2 ^ 32) (hP : Announces P c f) : Handled P c f (c.dispatch now f) := by
  unfold dispatch
  split
  · cases ht : f.frameType with
    | challenge => exact onChallenge_handled W hc ht
    | hello => exact onHello_handled W hc ht now
    | welcome => exact onWelcome_handled W G hc ht now hP
    | reject => exact onReject_handled W hc ht
    | goaway => exact onGoaway_handled W hc ht
    | ping => exact .afterAuth W hc fun hr => onPing_handled W hr hc ht
    | pong => exact .afterAuth W hc fun hr => onPong_handled W hr hc ht
    | «open» | data | fin | rst | windowUpdate => exact .error W hc _
  · refine .afterAuth W hc fun hr => ?_
    cases ht : f.frameType with
    | «open» => exact onStreamOpen_handled W hr hc ht hlt
    | data => exact onData_handled W hr hc ht
    | fin => exact onFin_handled W hr hc ht
    | rst => exact onRst_handled W hr hc ht
    | windowUpdate => exact onWindowUpdate_handled W hr hc ht
    | challenge | hello | welcome | reject | goaway | ping | pong => exact .error W hc _

/-- A connection that gives up on its peer just closes. -/
theorem fail_refines (W : Wf P c') (h : Frozen c c') (hc : c.closed = none) (e : ProtocolError) :
    Wf P (c'.fail e).1 ∧ Silent P c.core (c'.fail e).1.core :=
  ⟨W.closeInternal, closeInternal_silent h.closed hc h.server h.hs h.next h.lastPeer h.finished⟩

theorem recvFrame_refines (W : Wf P c) (G : c.core.Good P) (hc : c.closed = none) (now : Instant)
    (hlt : f.streamId < 2 ^ 32) (hP : Announces P c f) : Wf P (c.recvFrame now f).1 ∧
    match (c.recvFrame now f).2 with
    | .ok () => Act P c.core (.consume f) (c.recvFrame now f).1.core
    | .error _ => Silent P c.core (c.recvFrame now f).1.core := by
  have W₁ : Wf P { c with timers := c.timers.onRecv now } :=
    W.of rfl rfl rfl rfl (fun h => h) W.active
  obtain ⟨W₂, h⟩ := dispatch_handled (c := { c with timers := c.timers.onRecv now }) W₁ G hc now hlt hP
  unfold recvFrame
  dsimp only
  split
  · rename_i c' heq
    rw [heq] at W₂ h
    exact ⟨W₂, h⟩
  · rename_i c' e heq
    rw [heq] at W₂ h
    exact fail_refines (c := { c with timers := c.timers.onRecv now }) W₂ h hc e

theorem recv_refines {bytes : Bytes} (W : Wf P c) (G : c.core.Good P) (now : Instant)
    (hf : Frame.parse bytes = .ok f) (hlt : f.streamId < 2 ^ 32)
    (hP : c.closed = none → Announces P c f) : Wf P (c.recv now bytes).1 ∧
    match (c.recv now bytes).2 with
    | .ok () => Act P c.core (.consume f) (c.recv now bytes).1.core
    | .error _ => Silent P c.core (c.recv now bytes).1.core := by
  have W₁ := (observe_refines (c := c) now).2 W
  unfold recv
  dsimp only
  split
  · rename_i hc
    exact ⟨W₁, (Step.ignore hc).act⟩
  · rename_i hc
    have hc : (c.observe now).closed = none := by simpa using hc
    rw [hf]
    exact recvFrame_refines W₁ G hc _ hlt (hP hc)

/-- Bytes that are no frame close the connection, or find it closed. -/
theorem recv_garbled {bytes : Bytes} {e : ProtocolError} (W : Wf P c) (now : Instant)
    (hf : Frame.parse bytes = .error e) :
    Wf P (c.recv now bytes).1 ∧ Silent P c.core (c.recv now bytes).1.core := by
  have W₁ := (observe_refines (c := c) now).2 W
  unfold recv
  dsimp only
  split
  · exact ⟨W₁, .refl⟩
  · rename_i hc
    have hc : (c.observe now).closed = none := by simpa using hc
    rw [hf]
    exact fail_refines (c := c.observe now) W₁ (.refl hc) hc e

/-! ## Frames of an honest peer -/

omit [ThirdParty] in
theorem decoding_ok {α : Type} {codec : Codec α} {k : α → Outcome} {a : α}
    (h : codec.decode f.payload = some a) : c.decoding codec f k = k a := by
  simp [Connection.decoding, h]

omit [ThirdParty] in
theorem withStream_ok {k : Stream → Outcome} (hk : c.core.Known id)
    (h : ∀ s, c.streams.lookup id = some s → (k s).2 = .ok ()) : (c.withStream id k).2 = .ok () := by
  unfold Connection.withStream streamMut
  cases hl : c.streams.lookup id with
  | some s => exact h s hl
  | none =>
    rw [if_pos (known_iff.mpr hk)]

omit [ThirdParty] in
theorem known_of_view (G : ∀ s, c.streams.lookup id = some s → c.core.Known id)
    (h : c.core.view id ≠ .unknown) : c.core.Known id := by
  cases hl : c.streams.lookup id with
  | some s => exact G s hl
  | none =>
    by_contra hk
    exact h (by simp [Endpoint.view, core_streams_none hl, hk])

theorem onStreamOpen_ok (ht : f.frameType = .open)
    (hv : (View.step P c.core.server (c.core.view f.streamId) f).isSome) :
    (c.onStreamOpen f).2 = .ok () := by
  cases hview : c.core.view f.streamId with
  | gone | live => simp [View.step, ht, hview] at hv
  | unknown =>
    simp only [View.step, ht, hview] at hv
    split at hv
    · rename_i hcond
      obtain ⟨hpar, cls, hcls, hne⟩ := hcond
      have hlast : ¬f.streamId ≤ c.lastPeerStreamId := by
        intro hle
        refine Endpoint.view_ne_unknown (e := c.core) (i := f.streamId) ?_ hview
        rw [Endpoint.Known, if_pos hpar]
        exact hle
      have hpar : ¬(f.streamId % 2 == 1) != c.peerOpensOdd := by
        simpa [peerOpensOdd, core] using hpar
      unfold onStreamOpen
      dsimp only
      rw [if_neg (not_or.mpr ⟨hpar, hlast⟩), decoding_ok hcls, if_neg hne]
    · cases hv

theorem onData_ok (W : Wf P c) (G : c.core.Good P) (hr : c.core.Ready) (ht : f.frameType = .data)
    (hv : (View.step P c.core.server (c.core.view f.streamId) f).isSome) :
    (c.onData f).2 = .ok () := by
  simp only [View.step, ht] at hv
  unfold onData
  dsimp only
  rw [W.paramsInForce hr.done]
  cases hparse : parseData P f.streamId f.payload with
  | error e => simp [hparse] at hv
  | ok r =>
    obtain ⟨data, more⟩ := r
    simp only [hparse] at hv
    refine withStream_ok (known_of_view (fun s hl => (G.streams _ _ _ (core_streams hl)).2.1) ?_)
      fun s hl => ?_
    · intro h
      simp [h] at hv
    · simp only [view_of_lookup hl, Option.isSome_map] at hv
      obtain ⟨h', hh⟩ := Option.isSome_iff_exists.mp hv
      obtain ⟨ho, hn, hm, _⟩ := RecvHalf.onData_eq_some.mp hh
      have ho : s.remoteOpen = true := ho
      have hn : ¬s.recv.remaining < asU32 f.payload.length := Nat.not_lt.mpr hn
      have hm : ¬P.maxMessage.toNat < s.partialMsg.length + data.length := Nat.not_lt.mpr hm
      simp only [ho, Bool.not_true, Bool.false_eq_true, if_false, RecvWindow.onData, if_neg hn,
        if_neg hm]

theorem onFin_ok (G : c.core.Good P) (ht : f.frameType = .fin)
    (hv : (View.step P c.core.server (c.core.view f.streamId) f).isSome) :
    (c.onFin f).2 = .ok () := by
  simp only [View.step, ht] at hv
  refine withStream_ok (known_of_view (fun s hl => (G.streams _ _ _ (core_streams hl)).2.1) ?_)
    fun s hl => ?_
  · intro h
    simp [h] at hv
  · simp only [view_of_lookup hl, Option.isSome_map] at hv
    obtain ⟨h', hh⟩ := Option.isSome_iff_exists.mp hv
    obtain ⟨ho, hp, _⟩ := RecvHalf.onFin_eq_some.mp hh
    have ho : s.remoteOpen = true := ho
    have hp : s.partialMsg = [] := hp
    simp [ho, hp]

theorem onRst_ok (G : c.core.Good P) (ht : f.frameType = .rst)
    (hv : (View.step P c.core.server (c.core.view f.streamId) f).isSome) :
    (c.onRst f).2 = .ok () := by
  simp only [View.step, ht] at hv
  have hne : c.core.view f.streamId ≠ .unknown := by
    intro h
    simp [h] at hv
  have hdec : ∃ rst, ThirdParty.rst.decode f.payload = some rst := by
    cases hview : c.core.view f.streamId with
    | unknown => exact absurd hview hne
    | gone | live => exact Option.isSome_iff_exists.mp (by simpa [hview] using hv)
  obtain ⟨rst, hrst⟩ := hdec
  unfold onRst
  dsimp only
  rw [decoding_ok hrst]
  exact withStream_ok (known_of_view (fun s hl => (G.streams _ _ _ (core_streams hl)).2.1) hne)
    fun _ _ => rfl

theorem onWindowUpdate_ok {wu : WindowUpdate} (hk : c.core.Known f.streamId)
    (h : ThirdParty.windowUpdate.decode f.payload = some wu) : (c.onWindowUpdate f).2 = .ok () := by
  unfold onWindowUpdate
  dsimp only
  rw [decoding_ok h]
  refine withStream_ok hk fun s _ => ?_
  split <;> rfl

omit [ThirdParty] in
theorem checkWelcome_ok (hP : P.InRange) {version : UInt16}
    (h : acceptVersion maxVersion version = true) : checkWelcome ⟨version, P⟩ = .ok () := by
  unfold checkWelcome
  rw [if_neg (by simp [h]), if_neg (not_not_intro ⟨hP.window_ge, hP.window_le⟩),
    if_neg hP.frame_ge, if_neg hP.message_ge]

/-- What an endpoint must find in a frame for it to be no protocol error. -/
structure Legal (P : Params) (e : Endpoint) (f : Frame) : Prop where
  phase : ∃ q, PhaseStep P f e.hs q
  stream : f.frameType.isStream = true → (View.step P e.server (e.view f.streamId) f).isSome
  update : f.frameType = .windowUpdate →
    (∃ wu, ThirdParty.windowUpdate.decode f.payload = some wu) ∧ e.Known f.streamId

theorem Legal.announces (L : Legal P c.core f) : Announces P c f := by
  intro _ _ ht w hw _
  obtain ⟨q, hq⟩ := L.phase
  generalize c.core.hs = hs at hq
  cases hq with
  | welcome _ _ hd =>
    rw [hd] at hw
    cases hw
    rfl
  | goaway _ h | challenge _ h | hello _ h | reject _ h =>
    rw [ht] at h
    cases h
  | ordinary ho =>
    cases ho with
    | conn _ h => simp [ht] at h
    | stream _ h => simp [ht, FrameType.isStream] at h

theorem onHello_ok {hello : Hello} (hs : c.hs = .challengeSent) (hserver : c.core.server = true)
    (hd : ThirdParty.hello.decode f.payload = some hello) (now : Instant) :
    (c.onHello now f).2 = .ok () := by
  unfold onHello
  rw [if_neg (not_not_intro hs)]
  split
  · rename_i hrole
    simp [core, hrole, Role.isServer] at hserver
  · rw [decoding_ok hd]
    split
    · rfl
    · split
      · rfl
      · dsimp only
        split <;> rfl

theorem onChallenge_ok {ch : Challenge} (hs : c.hs = .awaitChallenge)
    (hserver : c.core.server = false) (hd : ThirdParty.challenge.decode f.payload = some ch) :
    (c.onChallenge f).2 = .ok () := by
  unfold onChallenge
  rw [if_neg (not_not_intro hs)]
  split
  · rename_i hrole
    simp [core, hrole, Role.isServer] at hserver
  · rw [decoding_ok hd]
    dsimp only
    split <;> rfl

theorem onWelcome_ok (hP : P.InRange) (W : Wf P c) {version : UInt16} (hs : c.hs = .helloSent)
    (hserver : c.core.server = false)
    (hd : ThirdParty.welcome.decode f.payload = some ⟨version, P⟩)
    (hv : acceptVersion maxVersion version = true) (now : Instant) :
    (c.onWelcome now f).2 = .ok () := by
  have hserver : c.cfg.role.isServer = false := hserver
  obtain ⟨k, hk⟩ := Option.isSome_iff_exists.mp (W.keyId hs)
  unfold onWelcome
  rw [if_neg (by simp [hserver, hs]), decoding_ok hd, checkWelcome_ok hP hv]
  dsimp only
  rw [hk]

theorem onReject_ok {r : Reject} (hs : c.hs = .helloSent) (hserver : c.core.server = false)
    (hd : ThirdParty.reject.decode f.payload = some r) : (c.onReject f).2 = .ok () := by
  have hserver : c.cfg.role.isServer = false := hserver
  unfold onReject
  rw [if_neg (by simp [hserver, hs]), decoding_ok hd]

theorem dispatch_ok (hP : P.InRange) (W : Wf P c) (G : c.core.Good P) (hc : c.closed = none)
    (L : Legal P c.core f) (now : Instant) : (c.dispatch now f).2 = .ok () := by
  obtain ⟨q, hq⟩ := L.phase
  have hrole := G.role
  generalize hhs : c.core.hs = hs at hq
  have hhs : c.hs = hs := hhs
  have hrole : c.hs = .done ∨ if c.core.server then c.hs = .challengeSent else
    c.hs = .awaitChallenge ∨ c.hs = .helloSent := hrole
  unfold dispatch
  cases hq with
  | goaway h0 ht hd =>
    rw [if_pos h0, ht]
    unfold onGoaway
    rw [decoding_ok hd]
  | challenge h0 ht hd =>
    rw [if_pos h0, ht]
    refine onChallenge_ok hhs ?_ hd
    cases hsrv : c.core.server <;> simp_all
  | hello h0 ht hd =>
    rw [if_pos h0, ht]
    refine onHello_ok hhs ?_ hd now
    cases hsrv : c.core.server <;> simp_all
  | welcome h0 ht hd hv =>
    rw [if_pos h0, ht]
    refine onWelcome_ok hP W hhs ?_ hd hv now
    cases hsrv : c.core.server <;> simp_all
  | reject h0 ht hd =>
    rw [if_pos h0, ht]
    refine onReject_ok hhs ?_ hd
    cases hsrv : c.core.server <;> simp_all
  | ordinary ho =>
    have hr : c.core.Ready := ⟨hhs, by simp [core, hc]⟩
    have hafter : ∀ k : Connection → Outcome, c.afterAuth k = k c := fun k => by
      rw [Connection.afterAuth, if_pos hhs]
    cases ho with
    | conn h0 ht hd =>
      obtain ⟨p, hd⟩ := hd
      rcases ht with ht | ht <;> rw [if_pos h0, ht] <;> dsimp only <;> rw [hafter]
      · unfold onPing
        rw [decoding_ok hd]
      · unfold onPong
        rw [decoding_ok hd]
    | stream h0 ht =>
      rw [if_neg h0, hafter]
      cases hft : f.frameType with
      | «open» => exact onStreamOpen_ok hft (L.stream (by rw [hft]; rfl))
      | data => exact onData_ok W G hr hft (L.stream (by rw [hft]; rfl))
      | fin => exact onFin_ok G hft (L.stream (by rw [hft]; rfl))
      | rst => exact onRst_ok G hft (L.stream (by rw [hft]; rfl))
      | windowUpdate =>
        obtain ⟨⟨wu, hd⟩, hk⟩ := L.update hft
        exact onWindowUpdate_ok hk hd
      | challenge | hello | welcome | reject | goaway | ping | pong =>
        rw [hft] at ht
        rcases ht with ht | ht <;> cases ht

/-- A legal frame is no protocol error. -/
theorem recv_ok {bytes : Bytes} (hP : P.InRange) (W : Wf P c) (G : c.core.Good P)
    (hf : Frame.parse bytes = .ok f) (hL : c.closed = none → Legal P c.core f) (now : Instant) :
    (c.recv now bytes).2 = .ok () := by
  unfold recv
  dsimp only
  split
  · rfl
  · rename_i hc
    have hc : (c.observe now).closed = none := by simpa using hc
    have W₁ : Wf P { c.observe now with
        timers := (c.observe now).timers.onRecv (c.observe now).timers.lastNow } :=
      W.of rfl rfl rfl rfl (fun h => h) W.active
    have hok := dispatch_ok hP W₁ G hc (hL hc) (c.observe now).timers.lastNow
    rw [hf]
    dsimp only [recvFrame]
    split
    · rfl
    · rename_i heq
      rw [heq] at hok
      cases hok

end TunnelWeaver.Mux.Connection
