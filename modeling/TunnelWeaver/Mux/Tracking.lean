import TunnelWeaver.Mux.Usage

/-! Which streams a connection tracks: a stream that is opened is new, and one that is not tracked any
more was reset by its application, or its end or reset was told. -/

namespace TunnelWeaver.Mux

namespace Watch
variable [ThirdParty] {w w' : Watch} {i : StreamId} {cls : Class}

theorem nextStreamId_of_open (h : (w.node.conn.open cls).2 = .ok i) :
    i = w.node.conn.nextStreamId ∧ (w.call (.open cls)).node.conn.streams.lookup i =
      some (.new cls w.node.conn.paramsInForce.initialWindow.toNat false) := by
  simp only [call, Node.call]
  unfold Connection.open at h ⊢
  split at h
  · cases h
  · split at h
    · cases h
    · dsimp only at h ⊢
      split at h
      · cases h
      · rename_i hcls hid
        cases h
        rw [if_neg hcls, if_neg hid]
        refine ⟨rfl, ?_⟩
        simp [Connection.pushControl, Connection.setStream]

/-- Nobody has used the id of a stream that is opened. -/
theorem Reachable.not_known_of_open (R : w.Reachable) (h : (w.node.conn.open cls).2 = .ok i) :
    ¬w.Known i := by
  obtain ⟨P, -, -, G⟩ := R.sound
  rw [(nextStreamId_of_open h).1]
  exact fun hk => G.not_known_next (Connection.known_iff.mp hk)

theorem known_of_open (R : w.Reachable) (h : (w.node.conn.open cls).2 = .ok i) :
    (w.call (.open cls)).Known i :=
  (call_later R _).reachable.known (nextStreamId_of_open h).2

/-! ## Messages taken -/

theorem taken_call {k : Call} (hk : k ≠ .recvMsg i) :
    (w.call k).node.taken i = w.node.taken i := by
  cases k with
  | recvMsg j =>
    have hj : i ≠ j := fun h => hk (by rw [h])
    simp only [call, Node.call]
    split
    · simp [Node.take, Function.update_of_ne hj]
    · rfl
  | send =>
    simp only [call, Node.call]
    split <;> rfl
  | _ => rfl

theorem taken_face {x : Input} (hx : ∀ k, x = .call k → ∃ reason, k = .close reason)
    (H : w.face x = some w') : w'.node.taken i = w.node.taken i := by
  cases x with
  | call k =>
    obtain ⟨reason, rfl⟩ := hx k rfl
    cases H
    rfl
  | handleTimeout =>
    obtain ⟨node, hnode, rfl⟩ := Option.map_eq_some_iff.mp H
    obtain ⟨conn, -, rfl⟩ := Option.map_eq_some_iff.mp hnode
    rfl
  | pollTransmit | recv =>
    cases H
    rfl

theorem polled_call {k : Call} (hk : k ≠ .pollEvent) : (w.call k).node.polled = w.node.polled := by
  cases k with
  | pollEvent => exact absurd rfl hk
  | send | recvMsg =>
    simp only [call, Node.call]
    split <;> rfl
  | _ => rfl

theorem polled_pollEvent {ev : Event} (h : w.node.conn.pollEvent.2 = some ev) :
    (w.call .pollEvent).node.polled = w.node.polled ++ [ev] := by
  simp [call, Node.call, h]

theorem polled_face {x : Input} (hx : ∀ k, x = .call k → ∃ reason, k = .close reason)
    (H : w.face x = some w') : w'.node.polled = w.node.polled := by
  cases x with
  | call k =>
    obtain ⟨reason, rfl⟩ := hx k rfl
    cases H
    rfl
  | handleTimeout =>
    obtain ⟨node, hnode, rfl⟩ := Option.map_eq_some_iff.mp H
    obtain ⟨conn, -, rfl⟩ := Option.map_eq_some_iff.mp hnode
    rfl
  | pollTransmit | recv =>
    cases H
    rfl

/-! ## Messages waiting -/

/-- Whether the peer may still send on the stream, and the messages waiting, while it is tracked. -/
def waiting (w : Watch) (i : StreamId) : Option (Bool × List Bytes) := (w.journal.lines i).stream

omit [ThirdParty] in
theorem waiting_eq : w.waiting i =
    (w.node.conn.streams.lookup i).map fun s => (s.remoteOpen, s.inbox.map (·.1)) := rfl

omit [ThirdParty] in
theorem lookup_maybeForget {c : Connection} {id : StreamId} :
    ((c.maybeForget id).streams.lookup i) = c.streams.lookup i ∨
      (c.maybeForget id).streams.lookup i = none := by
  unfold Connection.maybeForget
  split
  · exact .inl rfl
  · split
    · rw [Connection.lookup_dropStream]
      split
      · exact .inr rfl
      · exact .inl rfl
    · exact .inl rfl

/-- A call takes no message of a stream unless it reads one there. -/
theorem waiting_call (R : w.Reachable) (hknown : w.Known i) {k : Call} (hk : k ≠ .recvMsg i) :
    (w.call k).waiting i = w.waiting i ∨ (w.call k).waiting i = none := by
  by_cases hid : ∃ id, k.streamId = some id ∧ i ≠ id
  · obtain ⟨id, hid, hi⟩ := hid
    rw [waiting_eq, (call_same hid hi).stream]
    exact .inl rfl
  · have hsame (j : StreamId) (h : k.streamId = some j) : j = i := by
      by_contra hj
      exact hid ⟨j, h, fun h => hj h.symm⟩
    cases k with
    | recvMsg j => exact absurd (by rw [hsame j rfl]) hk
    | send j msg compress =>
      have h := Connection.send_evolves (c := w.node.conn) (p := w.node.polled) (a := w.arrived)
        (r := w.node.taken) j msg compress
      have hline := congrArg (fun x : Journal => (x.lines i).stream) h
      refine .inl (Eq.trans ?_ hline)
      rw [waiting_eq]
      simp only [call, Node.call]
      split <;> rfl
    | setClass j cls =>
      have h := Connection.setClass_evolves (c := w.node.conn) (p := w.node.polled)
        (a := w.arrived) (r := w.node.taken) j cls
      exact .inl (congrArg (fun x : Journal => (x.lines i).stream) h)
    | finish j =>
      have hset {t : Stream} {s : Stream} (hs : w.node.conn.streams.lookup j = some s)
          (ht : (t.remoteOpen, t.inbox.map (·.1)) = (s.remoteOpen, s.inbox.map (·.1))) :
          ((w.node.conn.setStream j t).streams.lookup i).map
            (fun s => (s.remoteOpen, s.inbox.map (·.1))) = w.waiting i := by
        rw [waiting_eq, Connection.lookup_setStream_ite, hsame j rfl, if_pos rfl, ← hsame j rfl, hs,
          Option.map_some, Option.map_some, ht]
      rw [waiting_eq]
      simp only [call, Node.call]
      unfold Connection.finish
      split
      · exact .inl rfl
      · split
        · exact .inl rfl
        · rename_i s hs
          split
          · exact .inl rfl
          · dsimp only
            split
            · have hforget := @lookup_maybeForget i ((w.node.conn.setStream j
                { s with localOpen := false }).queueFin j) j
              rcases hforget with h | h
              · rw [h]
                exact .inl (hset hs rfl)
              · rw [h]
                exact .inr rfl
            · exact .inl (hset hs rfl)
    | reset j code =>
      rw [waiting_eq]
      simp only [call, Node.call]
      unfold Connection.reset
      split
      · exact .inl rfl
      · split
        · exact .inl rfl
        · refine .inr ?_
          have hdrop : (w.node.conn.dropStream j).streams.lookup i = none := by
            rw [Connection.lookup_dropStream, hsame j rfl, if_pos rfl]
          exact congrArg (Option.map _) hdrop
    | «open» cls =>
      obtain ⟨P, -, -, G⟩ := R.sound
      have hi : i ≠ w.node.conn.nextStreamId := by
        rintro rfl
        exact G.not_known_next (Connection.known_iff.mp hknown)
      rw [waiting_eq]
      simp only [call, Node.call]
      unfold Connection.open
      split
      · exact .inl rfl
      · split
        · exact .inl rfl
        · dsimp only
          split
          · exact .inl rfl
          · refine .inl (congrArg (Option.map _) ?_)
            have hset : (w.node.conn.setStream w.node.conn.nextStreamId
                (.new cls w.node.conn.paramsInForce.initialWindow.toNat false)).streams.lookup i =
                  w.node.conn.streams.lookup i := by
              rw [Connection.lookup_setStream_ite, if_neg hi]
            exact hset
    | close reason =>
      cases hc : w.node.conn.closed with
      | some _ =>
        refine .inl ?_
        simp only [waiting_eq, call, Node.call, Connection.close, Connection.closeInternal, hc]
        rfl
      | none =>
        refine .inr (Option.not_isSome_iff_eq_none.mp fun h => ?_)
        have hopen := ((call_later R (.close reason)).reachable.contract.ready i h).2.1
        have hclosed : (w.call (.close reason)).node.conn.closed = some reason :=
          Connection.closed_closeInternal hc reason true
        exact absurd (hopen.symm.trans hclosed) (by simp)
    | pollEvent =>
      refine .inl ?_
      simp only [waiting_eq, call, Node.call, Connection.pollEvent]
      split <;> rfl
    | setBytesSink => exact .inl rfl

/-- Nothing comes from a stream that is over. -/
theorem Ended.recvMsg (E : w.Ended i) (R : w.Reachable) :
    (∃ e, (w.node.conn.recvMsg i).2 = .error e) ∧ w.call (.recvMsg i) = w := by
  cases h : (w.node.conn.recvMsg i).2 with
  | ok msg =>
    obtain ⟨wireLen, rest, hinbox, -⟩ := recvMsg_ok R h
    rw [E.inbox] at hinbox
    cases hinbox
  | error e => exact ⟨⟨e, rfl⟩, (recvMsg_error R h).1⟩

/-- Reading takes the first message waiting; the stream may be forgotten with the last. -/
theorem waiting_recvMsg (R : w.Reachable) {msg : Bytes} (h : (w.node.conn.recvMsg i).2 = .ok msg) :
    ∃ more rest, w.waiting i = some (more, msg :: rest) ∧
      ((w.call (.recvMsg i)).waiting i = some (more, rest) ∨
        (w.call (.recvMsg i)).waiting i = none ∧ more = false ∧ rest = []) := by
  have hcall : (w.call (.recvMsg i)).waiting i = (((w.node.conn.recvMsg i).1.streams.lookup i).map
      fun s => (s.remoteOpen, s.inbox.map (·.1))) := by
    rw [waiting_eq]
    simp only [call, Node.call, h]
    rfl
  rw [hcall, waiting_eq]
  cases hs : w.node.conn.streams.lookup i with
  | none =>
    simp only [Connection.recvMsg, hs] at h
    split at h <;> cases h
  | some s =>
    simp only [Connection.recvMsg, R.ready hs, hs] at h ⊢
    cases hin : s.inbox with
    | nil => simp [hin] at h
    | cons m rest =>
      obtain ⟨m, wireLen⟩ := m
      rw [hin] at h
      dsimp only at h ⊢
      split
      · rename_i ho
        rw [if_pos ho] at h
        cases h
        refine ⟨s.remoteOpen, rest.map (·.1), by simp [hin], .inl ?_⟩
        split
        · simp [Connection.queueWindowUpdate, Connection.pushControl, Connection.lookup_setStream]
        · simp [Connection.lookup_setStream]
      · rename_i ho
        rw [if_neg ho] at h
        cases h
        refine ⟨s.remoteOpen, rest.map (·.1), by simp [hin], ?_⟩
        split
        · rename_i hrest
          have hlast : rest = [] := List.isEmpty_iff.mp hrest
          have hset : ((w.node.conn.setStream i { s with inbox := rest }).pushEvent
              (.finished i)).streams.lookup i = some { s with inbox := rest } := by
            simp [Connection.pushEvent, Connection.lookup_setStream]
          unfold Connection.finishedStream
          have hforget := @lookup_maybeForget i ((w.node.conn.setStream i
              { s with inbox := rest }).pushEvent (.finished i)) i
          rcases hforget with hf | hf
          · rw [hf, hset]
            exact .inl rfl
          · rw [hf]
            exact .inr ⟨rfl, Bool.eq_false_iff.mpr ho, by rw [hlast]; rfl⟩
        · simp [Connection.lookup_setStream]

theorem Reachable.taken_of_not_known (R : w.Reachable) (h : ¬w.Known i) : w.node.taken i = [] := by
  have hline : w.journal.lines i = .unused := R.contract.unused i h
  exact congrArg Line.taken hline

theorem Reachable.ended_of_polled (R : w.Reachable) (h : .finished i ∈ w.node.polled) : w.Ended i :=
  R.ended (List.mem_append_left _ h)

end Watch

/-! ## Streams forgotten -/

/-- The stream was opened once and is not tracked any more. -/
def Watch.Forgotten (w : Watch) (i : StreamId) : Prop :=
  w.Known i ∧ w.node.conn.streams.lookup i = none

namespace Journal
variable {A : KeyId → Prop} {j j' : Journal} {i : StreamId}

theorem Calm.forgotten (H : Calm A j j') (hk : j.Known i) (h : (j.lines i).stream = none) :
    (j'.lines i).stream = none := by
  cases H with
  | handshake | authenticated => exact h
  | @use id _ _ _ _ hnew =>
    have hne : i ≠ id := fun heq => hnew (heq ▸ hk)
    change ((j.set id _).lines i).stream = none
    rw [set_lines, if_neg hne]
    exact h
  | @turn id l es T =>
    change ((j.set id l).lines i).stream = none
    rw [set_lines]
    split
    · rename_i heq
      subst heq
      have htracked := T.tracked
      rw [h] at htracked
      cases htracked
    · exact h

theorem Evolves.forgotten (H : Evolves A j j') (hk : j.Known i) (h : (j.lines i).stream = none) :
    (j'.lines i).stream = none := by
  rcases H with H | H
  · have hboth : j'.Known i ∧ (j'.lines i).stream = none := by
      induction H with
      | refl => exact ⟨hk, h⟩
      | tail _ h' ih => exact ⟨h'.known ih.1, h'.forgotten ih.1 ih.2⟩
    exact hboth.2
  · cases H
    rfl

end Journal

namespace Watch
variable [ThirdParty] {w w' : Watch} {i : StreamId}

theorem Forgotten.face {x : Input} (F : w.Forgotten i) (R : w.Reachable)
    (H : w.face x = some w') : w'.Forgotten i := by
  have E := face_evolves R.sound R.synced H
  have hnone : (w.journal.lines i).stream = none := by
    rw [← waiting, waiting_eq, F.2]
    rfl
  have h : w'.waiting i = none := E.forgotten F.1 hnone
  exact ⟨E.known F.1, Option.map_eq_none_iff.mp h⟩

theorem Forgotten.reset (hknown : w.Known i) (R : w.Reachable) (code : UInt32) :
    (w.call (.reset i code)).Forgotten i :=
  ⟨(call_later R _).known i hknown, lookup_reset R code⟩

/-- A reset that was told ended its stream. -/
theorem Reachable.forgotten_of_told (R : w.Reachable) (hknown : w.Known i) {code : UInt32}
    (h : .reset i code ∈ w.told) : w.Forgotten i :=
  ⟨hknown, Option.map_eq_none_iff.mp ((R.contract.fits i).reset code h)⟩

end Watch

/-! ## What becomes of a stream -/

/-- The event ends the stream. -/
def Event.Ends (i : StreamId) (e : Event) : Prop := e = .finished i ∨ ∃ code, e = .reset i code

namespace Connection

/-- Something may still come from the stream. -/
def Live (c : Connection) (i : StreamId) : Prop :=
  ∃ s, c.streams.lookup i = some s ∧ (s.remoteOpen = true ∨ s.inbox ≠ [])

/-- Stream `i` stays live, or its end is told. -/
def Kept (i : StreamId) (c c' : Connection) : Prop :=
  ∃ es, c'.events = c.events ++ es ∧ (c.Live i → c'.Live i ∨ ∃ e ∈ es, e.Ends i)

variable {c c' c'' : Connection} {i id : StreamId} {s t : Stream}

theorem Kept.of_eq (hs : c'.streams = c.streams) (he : c'.events = c.events) : Kept i c c' :=
  ⟨[], by rw [he, List.append_nil], fun h => .inl (by unfold Live; rwa [hs])⟩

theorem Kept.refl : Kept i c c := .of_eq rfl rfl

theorem Kept.trans (A : Kept i c c') (B : Kept i c' c'') : Kept i c c'' := by
  obtain ⟨es, he, h⟩ := A
  obtain ⟨es', he', h'⟩ := B
  refine ⟨es ++ es', by rw [he', he, List.append_assoc], fun hlive => ?_⟩
  rcases h hlive with hlive | ⟨e, hmem, hends⟩
  · rcases h' hlive with hlive | ⟨e, hmem, hends⟩
    · exact .inl hlive
    · exact .inr ⟨e, List.mem_append_right _ hmem, hends⟩
  · exact .inr ⟨e, List.mem_append_left _ hmem, hends⟩

theorem Kept.of_apart (A : Apart id c c') (hi : i ≠ id) : Kept i c c' := by
  obtain ⟨es, he, -⟩ := A.events
  refine ⟨es, he, fun hlive => .inl ?_⟩
  unfold Live
  rw [A.streams i hi]
  exact hlive

theorem kept_pushEvent (e : Event) : Kept i c (c.pushEvent e) := ⟨[e], rfl, .inl⟩

theorem kept_setStream (h : i = id → c.Live i → t.remoteOpen = true ∨ t.inbox ≠ []) :
    Kept i c (c.setStream id t) := by
  by_cases hi : i = id
  · refine ⟨[], by simp [setStream], fun hlive => .inl ⟨t, ?_, h hi hlive⟩⟩
    rw [lookup_setStream_ite, if_pos hi]
  · exact .of_apart apart_setStream hi

/-- What the application does not see of a stream may change. -/
theorem kept_setStream_same (hs : c.streams.lookup id = some s) (ho : t.remoteOpen = s.remoteOpen)
    (hin : t.inbox = s.inbox) : Kept i c (c.setStream id t) := by
  apply kept_setStream
  rintro rfl ⟨s', hs', h⟩
  rw [hs] at hs'
  cases hs'
  rwa [ho, hin]

/-- A stream that is forgotten was at its end. -/
theorem kept_maybeForget : Kept i c (c.maybeForget id) := by
  by_cases hi : i = id
  · subst hi
    unfold maybeForget
    split
    · exact .refl
    · rename_i s hs
      split
      · rename_i hfin
        refine ⟨[], ?_, ?_⟩
        · unfold dropStream
          split <;> simp
        · rintro ⟨s', hs', h⟩
          rw [hs] at hs'
          cases hs'
          simp [Stream.isFinished, Stream.remoteDrained] at hfin
          simp [hfin] at h
      · exact .refl
  · exact .of_apart apart_maybeForget hi

theorem events_maybeForget : (c.maybeForget id).events = c.events := by
  unfold maybeForget dropStream
  split
  · rfl
  · split
    · split <;> rfl
    · rfl

theorem kept_finishedStream : Kept i c ((c.setStream id t).finishedStream id) := by
  by_cases hi : i = id
  · refine ⟨[.finished id], ?_, fun _ => .inr ⟨_, List.mem_singleton_self _, .inl (hi ▸ rfl)⟩⟩
    unfold finishedStream
    rw [events_maybeForget]
    rfl
  · exact .of_apart (apart_setStream.trans apart_finishedStream) hi

theorem kept_report (x y : Nat) : Kept i c (c.report id x y) := by
  obtain ⟨reports, h⟩ := report_eq (c := c) id x y
  rw [h]
  exact .of_eq rfl rfl

theorem kept_pollTransmit : Kept i c c.pollTransmit.1 := by
  have hpick {sched : SchedTree} : Kept i c { c with sched } := .of_eq rfl rfl
  unfold pollTransmit
  split
  · exact .of_eq rfl rfl
  · dsimp only
    split
    · exact hpick
    · split
      · exact hpick
      · unfold emitControl onOpenSent
        dsimp only
        split
        · split
          · exact .of_eq rfl rfl
          · rename_i s hs
            have hset : Kept i c { c.setStream _ { s with openSent := true } with
                sched := c.sched } := (kept_setStream_same hs rfl rfl)
            split <;> exact hset.trans (.of_eq rfl rfl)
        · exact .of_eq rfl rfl
    · split
      · exact hpick
      · rename_i s hs
        split
        · exact hpick
        · rename_i payload rest _
          unfold emitData
          dsimp only
          have hset : Kept i c (c.setStream _ (s.popOutbox payload rest)) :=
            kept_setStream_same hs rfl rfl
          split <;> exact (hset.trans (.of_eq rfl rfl)).trans kept_maybeForget

variable [ThirdParty]

/-- A stream that is tracked when the connection closes is reset. -/
theorem kept_closeInternal (reason : CloseReason) (sendGoaway : Bool) :
    Kept i c (c.closeInternal reason sendGoaway) := by
  cases hc : c.closed with
  | some _ =>
    unfold closeInternal
    rw [hc]
    exact .refl
  | none =>
    obtain ⟨_, _, _, _, h⟩ := closeInternal_frame hc reason sendGoaway
    refine ⟨Event.closing c.sortedIds reason, by rw [h], ?_⟩
    rintro ⟨s, hs, -⟩
    refine .inr ⟨_, Event.mem_closing.mpr (.inl ⟨i, ?_, rfl⟩), .inr ⟨_, rfl⟩⟩
    rw [mem_sortedIds_iff, hs]
    rfl

theorem kept_timeoutLoop {now : Instant} {stillValid : Nat → KeyId → Bool} {fuel : Nat}
    (H : timeoutLoop now stillValid fuel c = some c') : Kept i c c' := by
  induction fuel generalizing c with
  | zero => cases H
  | succ fuel ih =>
    unfold timeoutLoop at H
    split at H
    · cases H
      exact .refl
    · split at H
      · cases H
        exact .refl
      · exact (kept_closeInternal _ _).trans (ih H)
      · exact (kept_closeInternal _ _).trans (ih H)
      · have hrearm : Kept i c (c.rearmReverify now) := by
          unfold rearmReverify
          split <;> exact .of_eq rfl rfl
        refine Kept.trans ?_ (ih H)
        unfold reverify
        dsimp only
        split
        · exact hrearm
        · exact hrearm.trans (kept_closeInternal _ _)
      · have hping : Kept i c c.sendPing := .of_eq rfl rfl
        exact hping.trans (ih H)

/-! ## Calls -/

theorem kept_open (cls : Class) : Kept i c (c.open cls).1 := by
  unfold Connection.open
  split
  · exact .refl
  · split
    · exact .refl
    · dsimp only
      split
      · exact .refl
      · have hset : Kept i c (c.setStream c.nextStreamId
            (.new cls c.paramsInForce.initialWindow.toNat false)) :=
          kept_setStream fun _ _ => .inl rfl
        exact hset.trans (.of_eq rfl rfl)

theorem kept_send (id : StreamId) (msg : Bytes) (compress : Compress) :
    Kept i c (c.send id msg compress).1 := by
  unfold send
  split
  · exact .refl
  · dsimp only
    split
    · exact .refl
    · split
      · exact .refl
      · rename_i s hs
        split
        · exact .refl
        · split
          · exact kept_setStream_same hs rfl rfl
          · have hrep (cls : Class) (ps : List Bytes) : Kept i c
                (ps.foldl (fun c p => c.report id 0 p.length)
                  (c.setStream id (s.pushOutbox cls ps msg.length))) := by
              have hset : Kept i c (c.setStream id (s.pushOutbox cls ps msg.length)) :=
                kept_setStream_same hs rfl rfl
              obtain ⟨reports, h⟩ := foldl_report_eq
                (c := c.setStream id (s.pushOutbox cls ps msg.length)) id ps
              rw [h]
              exact hset.trans (.of_eq rfl rfl)
            split
            · exact (hrep _ _).trans (.of_eq rfl rfl)
            · split
              · exact (hrep _ _).trans (.of_eq rfl rfl)
              · exact hrep _ _

omit [ThirdParty] in
theorem kept_finish (id : StreamId) : Kept i c (c.finish id).1 := by
  unfold finish
  split
  · exact .refl
  · split
    · exact .refl
    · rename_i s hs
      split
      · exact .refl
      · have hset : Kept i c (c.setStream id { s with localOpen := false }) :=
          kept_setStream_same hs rfl rfl
        dsimp only
        split
        · exact (hset.trans (.of_eq rfl rfl)).trans kept_maybeForget
        · exact hset

omit [ThirdParty] in
theorem kept_setClass (id : StreamId) (cls : Class) : Kept i c (c.setClass id cls).1 := by
  unfold setClass
  split
  · exact .refl
  · split
    · exact .refl
    · split
      · exact .refl
      · rename_i s hs
        split
        · exact .refl
        · have hset : Kept i c (c.setStream id { s with cls }) := kept_setStream_same hs rfl rfl
          exact hset.trans (.of_eq rfl rfl)

theorem kept_recvMsg (id : StreamId) : Kept i c (c.recvMsg id).1 := by
  unfold recvMsg
  split
  · exact .refl
  · split
    · exact .refl
    · rename_i s _
      split
      · exact .refl
      · rename_i wireLen rest _
        split
        · rename_i hopen
          have hset : Kept i c (c.setStream id { s with
              inbox := rest
              recv := (s.recv.onConsumed wireLen).1 }) :=
            kept_setStream fun _ _ => .inl hopen
          dsimp only
          split
          · exact hset.trans (.of_eq rfl rfl)
          · exact hset
        · dsimp only
          split
          · exact kept_finishedStream
          · rename_i hrest
            exact kept_setStream fun _ _ => .inr fun h => hrest (List.isEmpty_iff.mpr h)

/-! ## Receive -/

/-- The same of the outcome of a frame; after an error the connection closes. -/
def KeptBy (i : StreamId) (c : Connection) (o : Outcome) : Prop :=
  match o.2 with
  | .ok () => Kept i c o.1
  | .error _ => ∀ reason sendGoaway, Kept i c (o.1.closeInternal reason sendGoaway)

theorem Kept.by {o : Outcome} (h : Kept i c o.1) : KeptBy i c o := by
  unfold KeptBy
  split
  · exact h
  · exact fun _ _ => h.trans (kept_closeInternal _ _)

theorem keptBy_error (e : ProtocolError) : KeptBy i c (c, .error e) :=
  Kept.by (o := (c, .error e)) .refl

theorem keptBy_decoding {α : Type} {codec : Codec α} {f : Frame} {k : α → Outcome}
    (h : ∀ x, KeptBy i c (k x)) : KeptBy i c (c.decoding codec f k) := by
  unfold decoding
  split
  · exact keptBy_error _
  · exact h _

theorem keptBy_withStream {k : Stream → Outcome}
    (h : ∀ s, c.streams.lookup id = some s → KeptBy i c (k s)) :
    KeptBy i c (c.withStream id k) := by
  unfold withStream streamMut
  cases hs : c.streams.lookup id with
  | some s => exact h s hs
  | none =>
    dsimp only
    split
    · exact keptBy_error _
    · exact Kept.by (o := (c, .ok ())) .refl
    · rename_i heq
      split at heq <;> cases heq

theorem keptBy_afterAuth {k : Connection → Outcome} (h : KeptBy i c (k c)) :
    KeptBy i c (c.afterAuth k) := by
  unfold afterAuth
  split
  · exact h
  · exact keptBy_error _

theorem kept_rejectHandshake (code : RejectCode) (message : String) :
    Kept i c (c.rejectHandshake code message) := by
  refine Kept.trans ?_ (kept_closeInternal _ _)
  exact .of_eq rfl rfl

omit [ThirdParty] in
theorem kept_finishHandshake {now : Instant} {version : UInt16} {params : Params} {keyId : KeyId}
    (hs : c'.streams = c.streams) (he : c'.events = c.events) :
    Kept i c (c'.finishHandshake now version params keyId) := by
  refine Kept.trans ?_ (kept_pushEvent _)
  exact .of_eq hs he

theorem keptBy_onChallenge (f : Frame) : KeptBy i c (c.onChallenge f) := by
  unfold onChallenge
  split
  · exact keptBy_error _
  · split
    · exact keptBy_error _
    · apply keptBy_decoding
      intro ch
      dsimp only
      split
      · exact (kept_closeInternal _ _).by
      · exact Kept.by (.of_eq rfl rfl)

theorem keptBy_onHello (now : Instant) (f : Frame) : KeptBy i c (c.onHello now f) := by
  unfold onHello
  split
  · exact keptBy_error _
  · split
    · exact keptBy_error _
    · apply keptBy_decoding
      intro hello
      split
      · exact (kept_rejectHandshake _ _).by
      · split
        · exact (kept_rejectHandshake _ _).by
        · dsimp only
          split
          · exact (kept_rejectHandshake _ _).by
          · exact Kept.by (kept_finishHandshake rfl rfl)

theorem keptBy_onWelcome (now : Instant) (f : Frame) : KeptBy i c (c.onWelcome now f) := by
  unfold onWelcome
  split
  · exact keptBy_error _
  · apply keptBy_decoding
    intro welcome
    split
    · exact keptBy_error _
    · split
      · exact keptBy_error _
      · exact Kept.by (kept_finishHandshake rfl rfl)

theorem keptBy_onReject (f : Frame) : KeptBy i c (c.onReject f) := by
  unfold onReject
  split
  · exact keptBy_error _
  · apply keptBy_decoding
    intro reject
    exact Kept.by ((kept_pushEvent _).trans (kept_closeInternal _ _))

theorem keptBy_onPong (f : Frame) : KeptBy i c (c.onPong f) := by
  unfold onPong
  apply keptBy_decoding
  intro ping
  apply Kept.by
  dsimp only
  split
  · exact .of_eq rfl rfl
  · exact .refl

theorem keptBy_onStreamOpen (f : Frame) : KeptBy i c (c.onStreamOpen f) := by
  unfold onStreamOpen
  dsimp only
  split
  · exact keptBy_error _
  · apply keptBy_decoding
    intro cls
    split
    · exact keptBy_error _
    · have hset : Kept i c (c.setStream f.streamId
          (.new cls c.paramsInForce.initialWindow.toNat true)) :=
        kept_setStream fun _ _ => .inl rfl
      exact Kept.by ((hset.trans (.of_eq rfl rfl)).trans (kept_pushEvent _))

theorem keptBy_onData (f : Frame) : KeptBy i c (c.onData f) := by
  unfold onData
  dsimp only
  split
  · exact keptBy_error _
  · rename_i data more _
    apply keptBy_withStream
    intro s hs
    split
    · exact keptBy_error _
    · rename_i hopen
      have hopen : s.remoteOpen = true := by simpa using hopen
      split
      · exact keptBy_error _
      · rename_i recv _
        have hset : Kept i c ((c.setStream f.streamId { s with recv }).report f.streamId
            (asU32 f.payload.length) 0) := by
          refine Kept.trans ?_ (kept_report _ _)
          exact kept_setStream fun _ _ => .inl hopen
        apply Kept.by
        split
        · exact hset
        · have hdeliver : (deliverData s recv (asU32 f.payload.length) data more).remoteOpen =
              true := by
            unfold deliverData
            dsimp only
            split <;> exact hopen
          have hnext := hset.trans (@kept_setStream _ i f.streamId
            (deliverData s recv (asU32 f.payload.length) data more) fun _ _ => .inl hdeliver)
          split
          · exact hnext.trans (kept_pushEvent _)
          · exact hnext

theorem keptBy_onFin (hc : c.closed = none) (f : Frame) : KeptBy i c (c.onFin f) := by
  unfold onFin
  dsimp only
  apply keptBy_withStream
  intro s hs
  split
  · exact keptBy_error _
  · split
    · -- The stream is not live any more, but the close still resets it.
      intro reason sendGoaway
      obtain ⟨_, _, _, _, h⟩ := closeInternal_frame (c := c.setStream f.streamId
        { s with remoteOpen := false }) hc reason sendGoaway
      rw [h]
      refine ⟨Event.closing (c.setStream f.streamId { s with remoteOpen := false }).sortedIds reason,
        rfl, ?_⟩
      rintro ⟨s', hs', -⟩
      refine .inr ⟨_, Event.mem_closing.mpr (.inl ⟨i, ?_, rfl⟩), .inr ⟨_, rfl⟩⟩
      rw [mem_sortedIds_iff, lookup_setStream_ite]
      split
      · rfl
      · rw [hs']
        rfl
    · apply Kept.by
      dsimp only
      split
      · exact kept_finishedStream
      · rename_i hin
        exact kept_setStream fun _ _ => .inr fun h => hin (List.isEmpty_iff.mpr h)

theorem keptBy_onRst (f : Frame) : KeptBy i c (c.onRst f) := by
  unfold onRst
  dsimp only
  apply keptBy_decoding
  intro rst
  apply keptBy_withStream
  intro s hs
  apply Kept.by
  by_cases hi : i = f.streamId
  · refine ⟨[.reset f.streamId rst.code], ?_, fun _ => .inr ⟨_, List.mem_singleton_self _, .inr ?_⟩⟩
    · unfold dropStream
      split <;> rfl
    · exact ⟨rst.code, by rw [hi]⟩
  · exact (Kept.of_apart apart_dropStream hi).trans (kept_pushEvent _)

theorem keptBy_onWindowUpdate (f : Frame) : KeptBy i c (c.onWindowUpdate f) := by
  unfold onWindowUpdate
  dsimp only
  apply keptBy_decoding
  intro wu
  apply keptBy_withStream
  intro s hs
  apply Kept.by
  split
  · refine Kept.trans ?_ (kept_pushEvent _)
    exact kept_setStream_same hs rfl rfl
  · exact kept_setStream_same hs rfl rfl

theorem keptBy_dispatch (hc : c.closed = none) (now : Instant) (f : Frame) :
    KeptBy i c (c.dispatch now f) := by
  unfold dispatch
  split
  · split
    · exact keptBy_onChallenge f
    · exact keptBy_onHello now f
    · exact keptBy_onWelcome now f
    · exact keptBy_onReject f
    · apply keptBy_decoding
      exact fun _ => (kept_closeInternal _ _).by
    · apply keptBy_afterAuth
      apply keptBy_decoding
      exact fun _ => Kept.by (.of_eq rfl rfl)
    · exact keptBy_afterAuth (keptBy_onPong f)
    all_goals exact keptBy_error _
  · apply keptBy_afterAuth
    split
    · exact keptBy_onStreamOpen f
    · exact keptBy_onData f
    · exact keptBy_onFin hc f
    · exact keptBy_onRst f
    · exact keptBy_onWindowUpdate f
    all_goals exact keptBy_error _

theorem kept_recv (now : Instant) (bytes : Bytes) : Kept i c (c.recv now bytes).1 := by
  unfold recv
  have hobserve {timers : Timers} : Kept i c { c with timers } := .of_eq rfl rfl
  dsimp only
  split
  · exact hobserve
  · rename_i hopen
    split
    · exact hobserve.trans (kept_closeInternal _ _)
    · rename_i f _
      have hc : c.closed = none := Option.not_isSome_iff_eq_none.mp hopen
      unfold recvFrame
      have hd := keptBy_dispatch (i := i) (c := { c.observe now with
        timers := (c.observe now).timers.onRecv (c.observe now).timers.lastNow }) hc
        (c.observe now).timers.lastNow f
      dsimp only
      split <;> rename_i heq <;> rw [heq] at hd
      · exact hobserve.trans hd
      · exact hobserve.trans (hd _ _)

end Connection

namespace Watch
variable [ThirdParty] {w w' : Watch} {i : StreamId}

/-- The stream is tracked, or its end was told. -/
def Accounted (w : Watch) (i : StreamId) : Prop :=
  (w.node.conn.streams.lookup i).isSome = true ∨ ∃ e ∈ w.told, e.Ends i

theorem told_pollEvent : (w.call .pollEvent).told = w.told := by
  simp only [told, call, Node.call, Connection.pollEvent]
  split
  · simp
  · rename_i heq
    simp [heq]

theorem face_kept {x : Input} (hx : ∀ code, x ≠ .call (.reset i code)) (H : w.face x = some w') :
    ∃ es, w'.told = w.told ++ es ∧
      (w.node.conn.Live i → w'.node.conn.Live i ∨ ∃ e ∈ es, e.Ends i) := by
  have hof {conn : Connection} (K : Connection.Kept i w.node.conn conn) : ∃ es,
      w.node.polled ++ conn.events = w.told ++ es ∧
        (w.node.conn.Live i → conn.Live i ∨ ∃ e ∈ es, e.Ends i) := by
    obtain ⟨es, he, h⟩ := K
    exact ⟨es, by rw [told, he, List.append_assoc], h⟩
  obtain ⟨node, hnode, rfl⟩ := Option.map_eq_some_iff.mp H
  cases x with
  | pollTransmit =>
    cases hnode
    exact hof Connection.kept_pollTransmit
  | recv now bytes =>
    cases hnode
    exact hof (Connection.kept_recv now bytes)
  | handleTimeout now stillValid fuel =>
    obtain ⟨conn, hconn, rfl⟩ := Option.map_eq_some_iff.mp hnode
    refine hof (Connection.Kept.trans ?_ (Connection.kept_timeoutLoop hconn))
    exact .of_eq rfl rfl
  | call k =>
    cases hnode
    cases k with
    | «open» cls => exact hof (Connection.kept_open cls)
    | send id msg compress =>
      simp only [Node.call]
      split <;> exact hof (Connection.kept_send id msg compress)
    | recvMsg id =>
      simp only [Node.call]
      split <;> exact hof (Connection.kept_recvMsg id)
    | finish id => exact hof (Connection.kept_finish id)
    | setClass id cls => exact hof (Connection.kept_setClass id cls)
    | close reason => exact hof (Connection.kept_closeInternal _ _)
    | setBytesSink => exact hof (.of_eq rfl rfl)
    | reset id code =>
      have hi : i ≠ id := fun h => hx code (by rw [h])
      exact hof (.of_apart (Connection.apart_reset id code) hi)
    | pollEvent =>
      refine ⟨[], (told_pollEvent (w := w)).trans (List.append_nil _).symm, fun h => .inl ?_⟩
      simp only [Node.call, Connection.pollEvent]
      split <;> exact h

/-- Calls forget nothing that was told. -/
theorem told_calls (R : w.Reachable) (ks : List Call) :
    ∃ es, (ks.foldl Watch.call w).told = w.told ++ es := by
  induction ks generalizing w with
  | nil => exact ⟨[], (List.append_nil _).symm⟩
  | cons k ks ih =>
    obtain ⟨es, htells⟩ := (call_evolves (A := fun _ => True) R.sound k).tells
    obtain ⟨es', h⟩ := ih (call_later R k).reachable
    have htold : (w.call k).told = w.told ++ es := htells.told
    exact ⟨es ++ es', by rw [List.foldl_cons, h, htold, List.append_assoc]⟩

theorem later_calls (R : w.Reachable) (ks : List Call) : Later w (ks.foldl Watch.call w) := by
  induction ks generalizing w with
  | nil => exact .refl R
  | cons k ks ih => exact (call_later R k).trans (ih (call_later R k).reachable)

/-- Only a reset of its own application lets a stream go without a word. -/
theorem Accounted.face {x : Input} (R : w.Reachable) (hx : ∀ code, x ≠ .call (.reset i code))
    (H : w.face x = some w') (h : w.Accounted i) : w'.Accounted i := by
  obtain ⟨es, htold, hlive⟩ := face_kept hx H
  have hmono {e : Event} (he : e ∈ w.told) : e ∈ w'.told := by
    rw [htold]
    exact List.mem_append_left _ he
  rcases h with h | ⟨e, he, hends⟩
  · obtain ⟨s, hs⟩ := Option.isSome_iff_exists.mp h
    by_cases hdrained : s.remoteOpen = false ∧ s.inbox = []
    · have hline : (w.journal.lines i).stream = some (s.remoteOpen, s.inbox.map (·.1)) := by
        simp [journal, Connection.journal, Connection.line, hs]
      have hfin := ((R.contract.fits i).finished _ hline).mpr (by rw [hdrained.1, hdrained.2]; rfl)
      exact .inr ⟨_, hmono hfin, .inl rfl⟩
    · have hl : w.node.conn.Live i := by
        refine ⟨s, hs, ?_⟩
        rcases Bool.eq_false_or_eq_true s.remoteOpen with ho | ho
        · exact .inl ho
        · exact .inr fun hin => hdrained ⟨ho, hin⟩
      rcases hlive hl with ⟨s', hs', -⟩ | ⟨e, he, hends⟩
      · exact .inl (by rw [hs']; rfl)
      · exact .inr ⟨e, by rw [htold]; exact List.mem_append_right _ he, hends⟩
  · exact .inr ⟨e, hmono he, hends⟩

theorem Accounted.call {k : Call} (R : w.Reachable) (hk : ∀ code, k ≠ .reset i code)
    (h : w.Accounted i) : (w.call k).Accounted i :=
  h.face (x := .call k) R (fun code hx => hk code (Input.call.inj hx)) rfl

/-- A reset of the application forgets nothing that was told. -/
theorem accounted_reset {e : Event} (he : e ∈ w.told) (hends : e.Ends i) (code : UInt32) :
    (w.call (.reset i code)).Accounted i := by
  obtain ⟨es, hes, -⟩ := (Connection.apart_reset (c := w.node.conn) i code).events
  refine .inr ⟨e, ?_, hends⟩
  rcases List.mem_append.mp he with he | he
  · exact List.mem_append_left _ he
  · refine List.mem_append_right _ ?_
    have hin : e ∈ (w.node.conn.reset i code).1.events := by
      rw [hes]
      exact List.mem_append_left _ he
    exact hin

theorem accounted_of_open {cls : Class} (h : (w.node.conn.open cls).2 = .ok i) :
    (w.call (.open cls)).Accounted i := by
  refine .inl ?_
  rw [(nextStreamId_of_open h).2]
  rfl

end Watch

end TunnelWeaver.Mux
