import TunnelWeaver.Mux.Told

/-! What the application of a connection may rely on from one call to the next: what a call leaves
alone, what it achieves on its own stream, and what never comes undone. -/

namespace TunnelWeaver.Mux

/-! ## Calls on one stream -/

/-- The stream a call is about. -/
def Call.streamId : Call → Option StreamId
  | .send id .. | .recvMsg id | .finish id | .reset id _ | .setClass id _ => some id
  | .open _ | .close _ | .pollEvent | .setBytesSink => none

namespace Connection

/-- Only stream `id` and events about it change. -/
structure Apart (id : StreamId) (c c' : Connection) : Prop where
  streams : ∀ i, i ≠ id → c'.streams.lookup i = c.streams.lookup i
  events : ∃ es, c'.events = c.events ++ es ∧ ∀ e ∈ es, e.streamId = some id

variable {c c' c'' : Connection} {id : StreamId} {s : Stream}

theorem Apart.refl : Apart id c c := ⟨fun _ _ => rfl, [], by simp, by simp⟩

theorem Apart.trans (A : Apart id c c') (B : Apart id c' c'') : Apart id c c'' := by
  obtain ⟨hs, es, he, hes⟩ := A
  obtain ⟨hs', es', he', hes'⟩ := B
  refine ⟨fun i hi => (hs' i hi).trans (hs i hi), es ++ es', by rw [he', he, List.append_assoc], ?_⟩
  intro e h
  rcases List.mem_append.mp h with h | h
  · exact hes e h
  · exact hes' e h

/-- Neither streams nor events change. -/
theorem Apart.of_eq (hs : c'.streams = c.streams) (he : c'.events = c.events) : Apart id c c' :=
  ⟨fun i _ => by rw [hs], [], by simp [he], by simp⟩

theorem apart_setStream : Apart id c (c.setStream id s) :=
  ⟨fun i hi => by rw [lookup_setStream_ite, if_neg hi], [], by simp [setStream], by simp⟩

theorem apart_dropStream : Apart id c (c.dropStream id) := by
  refine ⟨fun i hi => by rw [lookup_dropStream, if_neg hi], [], ?_, by simp⟩
  unfold dropStream
  split <;> simp

theorem apart_maybeForget : Apart id c (c.maybeForget id) := by
  unfold maybeForget
  split
  · exact .refl
  · split
    · exact apart_dropStream
    · exact .refl

theorem lookup_of_maybeForget {i : StreamId} (h : (c.maybeForget id).streams.lookup i = some s) :
    c.streams.lookup i = some s := by
  unfold maybeForget at h
  split at h
  · exact h
  · split at h
    · rw [lookup_dropStream] at h
      split at h
      · cases h
      · exact h
    · exact h

theorem apart_finishedStream : Apart id c (c.finishedStream id) :=
  have hpush : Apart id c (c.pushEvent (.finished id)) :=
    ⟨fun _ _ => rfl, [.finished id], rfl, by simp [Event.streamId]⟩
  hpush.trans apart_maybeForget

variable [ThirdParty]

theorem apart_send (id : StreamId) (msg : Bytes) (compress : Compress) :
    Apart id c (c.send id msg compress).1 := by
  unfold send
  split
  · exact .refl
  · dsimp only
    split
    · exact .refl
    · split
      · exact .refl
      · split
        · exact .refl
        · split
          · exact apart_setStream
          · have hrep {t : Stream} (ps : List Bytes) : Apart id c
                (ps.foldl (fun c p => c.report id 0 p.length) (c.setStream id t)) := by
              obtain ⟨reports, h⟩ := foldl_report_eq (c := c.setStream id t) id ps
              rw [h]
              exact apart_setStream.trans (.of_eq rfl rfl)
            split
            · exact (hrep _).trans (.of_eq rfl rfl)
            · split
              · exact (hrep _).trans (.of_eq rfl rfl)
              · exact hrep _

theorem apart_recvMsg (id : StreamId) : Apart id c (c.recvMsg id).1 := by
  unfold recvMsg
  split
  · exact .refl
  · split
    · exact .refl
    · split
      · exact .refl
      · split
        · dsimp only
          split
          · exact apart_setStream.trans (.of_eq rfl rfl)
          · exact apart_setStream
        · dsimp only
          split
          · exact apart_setStream.trans apart_finishedStream
          · exact apart_setStream

omit [ThirdParty] in
theorem apart_finish (id : StreamId) : Apart id c (c.finish id).1 := by
  unfold finish
  split
  · exact .refl
  · split
    · exact .refl
    · split
      · exact .refl
      · dsimp only
        split
        · have hfin {t : Stream} : Apart id (c.setStream id t) ((c.setStream id t).queueFin id) :=
            .of_eq rfl rfl
          exact (apart_setStream.trans hfin).trans apart_maybeForget
        · exact apart_setStream

theorem apart_reset (id : StreamId) (code : UInt32) : Apart id c (c.reset id code).1 := by
  unfold reset
  split
  · exact .refl
  · split
    · exact .refl
    · exact apart_dropStream.trans (.of_eq rfl rfl)

omit [ThirdParty] in
theorem apart_setClass (id : StreamId) (cls : Class) : Apart id c (c.setClass id cls).1 := by
  unfold setClass
  split
  · exact .refl
  · split
    · exact .refl
    · split
      · exact .refl
      · split
        · exact .refl
        · exact apart_setStream.trans (.of_eq rfl rfl)

end Connection

namespace Watch
variable [ThirdParty]

/-- The application calls its connection. -/
def call (w : Watch) (k : Call) : Watch := { w with node := w.node.call k }

theorem face_call (w : Watch) (k : Call) : w.face (.call k) = some (w.call k) := rfl

/-- Stream `i` is as it was, and nothing was told of it. -/
structure Same (i : StreamId) (w w' : Watch) : Prop where
  stream : w'.node.conn.streams.lookup i = w.node.conn.streams.lookup i
  taken : w'.node.taken i = w.node.taken i
  arrived : w'.arrived i = w.arrived i
  polled : w'.node.polled = w.node.polled
  events : ∃ es, w'.node.conn.events = w.node.conn.events ++ es ∧ ∀ e ∈ es, e.streamId ≠ some i

variable {w w' w'' : Watch} {i id : StreamId}

omit [ThirdParty] in
theorem Same.refl : Same i w w := ⟨rfl, rfl, rfl, rfl, [], by simp, by simp⟩

omit [ThirdParty] in
theorem Same.trans (A : Same i w w') (B : Same i w' w'') : Same i w w'' := by
  obtain ⟨hs, ht, ha, hp, es, he, hes⟩ := A
  obtain ⟨hs', ht', ha', hp', es', he', hes'⟩ := B
  refine ⟨hs'.trans hs, ht'.trans ht, ha'.trans ha, hp'.trans hp, es ++ es',
    by rw [he', he, List.append_assoc], fun e h => ?_⟩
  rcases List.mem_append.mp h with h | h
  · exact hes e h
  · exact hes' e h

omit [ThirdParty] in
theorem Same.of_apart (A : Connection.Apart id w.node.conn w'.node.conn) (hi : i ≠ id)
    (ht : w'.node.taken i = w.node.taken i) (ha : w'.arrived = w.arrived)
    (hp : w'.node.polled = w.node.polled) : Same i w w' := by
  obtain ⟨hs, es, he, hes⟩ := A
  refine ⟨hs i hi, ht, by rw [ha], hp, es, he, fun e h => ?_⟩
  rw [hes e h]
  exact fun heq => hi (Option.some.inj heq).symm

/-- A call leaves the other streams alone. -/
theorem call_same {k : Call} (hk : k.streamId = some id) (hi : i ≠ id) : Same i w (w.call k) := by
  cases k with
  | send j msg compress =>
    cases hk
    have A := Connection.apart_send (c := w.node.conn) id msg compress
    simp only [call, Node.call]
    split <;> exact .of_apart A hi rfl rfl rfl
  | recvMsg j =>
    cases hk
    have A := Connection.apart_recvMsg (c := w.node.conn) id
    simp only [call, Node.call]
    split
    · refine .of_apart A hi ?_ rfl rfl
      simp [Node.take, hi]
    · exact .of_apart A hi rfl rfl rfl
  | finish j =>
    cases hk
    exact .of_apart (Connection.apart_finish id) hi rfl rfl rfl
  | reset j code =>
    cases hk
    exact .of_apart (Connection.apart_reset id code) hi rfl rfl rfl
  | setClass j cls =>
    cases hk
    exact .of_apart (Connection.apart_setClass id cls) hi rfl rfl rfl
  | «open» | close | pollEvent | setBytesSink => cases hk

/-! ## What lasts -/

/-- Some inputs lead to this state of the connection. -/
def Reachable (w : Watch) : Prop := ∃ cfg now inputs, exposed cfg now inputs = some w

theorem reachable_new (cfg : Config) (now : Instant) : Reachable (.new (.new cfg now)) :=
  ⟨cfg, now, [], rfl⟩

theorem Reachable.face {x : Input} (R : Reachable w) (H : w.face x = some w') : Reachable w' := by
  obtain ⟨cfg, now, inputs, h⟩ := R
  refine ⟨cfg, now, inputs ++ [x], Automaton.run_append_eq_some.mpr ⟨w, h, ?_⟩⟩
  rw [Automaton.run_singleton]
  exact H

theorem Reachable.sound (R : Reachable w) : w.node.conn.Sound := by
  obtain ⟨cfg, now, inputs, h⟩ := R
  exact Node.exposed_sound (exposed_node h)

theorem Reachable.synced (R : Reachable w) : w.node.conn.Synced := by
  obtain ⟨cfg, now, inputs, h⟩ := R
  exact Node.exposed_synced (exposed_node h)

theorem Reachable.contract (R : Reachable w) : w.journal.Contract := by
  obtain ⟨cfg, now, inputs, h⟩ := R
  exact exposed_contract h

/-- The stream exists or existed. -/
def Known (w : Watch) (i : StreamId) : Prop := w.node.conn.known i = true

/-- Nothing can be sent on the stream any more. -/
structure Shut (w : Watch) (i : StreamId) : Prop where
  known : w.Known i
  closed : ∀ s, w.node.conn.streams.lookup i = some s → s.localOpen = false

/-- Nothing comes from the stream any more. -/
structure Ended (w : Watch) (i : StreamId) : Prop where
  known : w.Known i
  closed : ∀ s, w.node.conn.streams.lookup i = some s → s.remoteOpen = false ∧ s.inbox = []

omit [ThirdParty] in
theorem ended_iff : Ended w i ↔ w.journal.Known i ∧ ∀ x, (w.journal.lines i).stream = some x →
    x = (false, []) := by
  have hline : (w.journal.lines i).stream =
    (w.node.conn.streams.lookup i).map fun s => (s.remoteOpen, s.inbox.map (·.1)) := rfl
  rw [hline]
  constructor
  · rintro ⟨hk, h⟩
    refine ⟨hk, fun x hx => ?_⟩
    obtain ⟨s, hs, rfl⟩ := Option.map_eq_some_iff.mp hx
    obtain ⟨ho, hi⟩ := h s hs
    rw [ho, hi]
    rfl
  · rintro ⟨hk, h⟩
    refine ⟨hk, fun s hs => ?_⟩
    have hx := h (s.remoteOpen, s.inbox.map (·.1)) (by rw [hs]; rfl)
    rw [Prod.mk.injEq, List.map_eq_nil_iff] at hx
    exact hx

end Watch

namespace Journal
variable {A : KeyId → Prop} {j j' : Journal} {id : StreamId}

theorem Calm.known (H : Calm A j j') (h : j.Known id) : j'.Known id := by
  cases H with
  | handshake | authenticated | turn => exact h
  | use _ _ _ hmono => exact hmono id h

/-- The stream of a known id does not begin again once it is over. -/
theorem Calm.ended (H : Calm A j j') (hk : j.Known id)
    (h : ∀ x, (j.lines id).stream = some x → x = (false, [])) :
    ∀ x, (j'.lines id).stream = some x → x = (false, []) := by
  cases H with
  | handshake | authenticated => exact h
  | @use i _ _ _ _ hnew =>
    have hne : id ≠ i := fun heq => hnew (heq ▸ hk)
    change ∀ x, ((j.set i _).lines id).stream = some x → x = (false, [])
    rw [set_lines, if_neg hne]
    exact h
  | @turn i l es T =>
    change ∀ x, ((j.set i l).lines id).stream = some x → x = (false, [])
    rw [set_lines]
    split
    · rename_i heq
      subst heq
      generalize j.lines id = l₀ at T h
      cases T with
      | arrived | fin | ended | took | tookLast => simp at h
      | writable => exact h
      | drop | reset => simp
    · exact h

theorem Evolves.known (H : Evolves A j j') (h : j.Known id) : j'.Known id := by
  rcases H with H | H
  · induction H with
    | refl => exact h
    | tail _ h' ih => exact h'.known ih
  · cases H
    exact h

theorem Evolves.ended (H : Evolves A j j') (hk : j.Known id)
    (h : ∀ x, (j.lines id).stream = some x → x = (false, [])) :
    ∀ x, (j'.lines id).stream = some x → x = (false, []) := by
  rcases H with H | H
  · have hboth : j'.Known id ∧ ∀ x, (j'.lines id).stream = some x → x = (false, []) := by
      induction H with
      | refl => exact ⟨hk, h⟩
      | tail _ h' ih => exact ⟨h'.known ih.1, h'.ended ih.1 ih.2⟩
    exact hboth.2
  · cases H
    rintro x ⟨⟩

end Journal

namespace Watch
variable [ThirdParty] {w w' w'' : Watch} {i : StreamId}

/-- What is so in `w` and still is in `w'`, some inputs later. -/
structure Later (w w' : Watch) : Prop where
  reachable : Reachable w'
  known : ∀ i, w.Known i → w'.Known i
  shut : ∀ i, w.Shut i → w'.Shut i
  ended : ∀ i, w.Ended i → w'.Ended i
  server : w'.node.conn.core.server = w.node.conn.core.server
  done : w.node.conn.hs = .done →
    w'.node.conn.hs = .done ∧ w'.node.conn.paramsInForce = w.node.conn.paramsInForce
  polled : w.node.polled <+: w'.node.polled

theorem Later.refl (R : Reachable w) : Later w w :=
  ⟨R, fun _ h => h, fun _ h => h, fun _ h => h, rfl, fun h => ⟨h, rfl⟩, List.prefix_rfl⟩

theorem Later.trans (A : Later w w') (B : Later w' w'') : Later w w'' where
  reachable := B.reachable
  known i h := B.known i (A.known i h)
  shut i h := B.shut i (A.shut i h)
  ended i h := B.ended i (A.ended i h)
  server := B.server.trans A.server
  done h := by
    obtain ⟨hd, hp⟩ := A.done h
    obtain ⟨hd', hp'⟩ := B.done hd
    exact ⟨hd', hp'.trans hp⟩
  polled := A.polled.trans B.polled

end Watch

namespace Endpoint
variable [ThirdParty] {P : Params} {e e' : Endpoint} {i : StreamId}

/-- The id is known, and its sending half, if there is one, closed. -/
def HalfClosed (e : Endpoint) (i : StreamId) : Prop :=
  e.Known i ∧ ∀ s, e.sendHalf i = some s → s.localOpen = false

theorem Step.keepsHalfClosed {l : Label} (G : e.Good P) (H : Step P e l e') (h : e.HalfClosed i) :
    e'.HalfClosed i := by
  refine ⟨H.known h.1, fun s' hs' => ?_⟩
  obtain ⟨s, hs, hopen⟩ := H.halfClosed G h.1 hs'
  exact hopen (h.2 s hs)

theorem Step.keepsDone {l : Label} (H : Step P e l e') (h : e.hs = .done) : e'.hs = .done := by
  cases H <;> first | exact h | rfl | (rename_i h' _; rw [h] at h'; cases h')

end Endpoint

namespace Watch
variable [ThirdParty] {w w' w'' : Watch} {i : StreamId}

omit [ThirdParty] in
theorem shut_iff : Shut w i ↔ w.node.conn.core.HalfClosed i := by
  have hhalf : w.node.conn.core.sendHalf i = (w.node.conn.streams.lookup i).map (·.sendHalf) := by
    simp only [Endpoint.sendHalf, Connection.core, Option.map_map]
    rfl
  unfold Endpoint.HalfClosed
  rw [hhalf, ← Connection.known_iff]
  constructor
  · rintro ⟨hk, h⟩
    refine ⟨hk, fun s hs => ?_⟩
    obtain ⟨t, ht, rfl⟩ := Option.map_eq_some_iff.mp hs
    exact h t ht
  · rintro ⟨hk, h⟩
    exact ⟨hk, fun s hs => h s.sendHalf (by rw [hs]; rfl)⟩

theorem Reachable.wire (R : Reachable w) : ∃ fs : List Frame, w.node.wire = fs.map Frame.encode := by
  obtain ⟨cfg, now, inputs, h⟩ := R
  obtain ⟨_, fs, _, hw, _⟩ := Node.exposed_invariant (I := fun _ _ => True) (fun _ => trivial)
    (fun _ _ _ _ => trivial) (fun _ _ => trivial) (exposed_node h)
  exact ⟨fs, hw⟩

theorem call_polled (k : Call) : w.node.polled <+: (w.node.call k).polled := by
  cases k with
  | send | recvMsg =>
    simp only [Node.call]
    split <;> exact List.prefix_rfl
  | pollEvent => exact List.prefix_append ..
  | _ => exact List.prefix_rfl

theorem face_polled {x : Input} (H : w.face x = some w') : w.node.polled <+: w'.node.polled := by
  have hn := face_node H
  cases x with
  | call k =>
    rw [← Option.some.inj hn]
    exact call_polled k
  | handleTimeout =>
    obtain ⟨conn, _, hw⟩ := Option.map_eq_some_iff.mp hn
    rw [← hw]
  | pollTransmit | recv =>
    rw [← Option.some.inj hn]

theorem face_later {x : Input} (R : Reachable w) (H : w.face x = some w') : Later w w' := by
  have E := face_evolves R.sound R.synced H
  obtain ⟨fs, hw⟩ := R.wire
  obtain ⟨P, fs', A⟩ := Node.face_advances R.sound hw (face_node H)
  have hkeep : ∀ {I : Endpoint → Prop}, (∀ {e e' l}, e.Good P → Endpoint.Step P e l e' → I e → I e') →
      I w.node.conn.core → I w'.node.conn.core := by
    intro I hstep
    refine A.moves.invariant (I := fun x => I x.e) A.inRange (fun G h => ?_) A.good
    obtain ⟨l, h⟩ := h.endpoint
    exact hstep G h
  refine ⟨R.face H, fun i h => E.known h, fun i h => ?_, fun i h => ?_, ?_, fun h => ?_,
    face_polled H⟩
  · exact shut_iff.mpr (hkeep (fun G h => h.keepsHalfClosed G) (shut_iff.mp h))
  · obtain ⟨hk, h⟩ := ended_iff.mp h
    exact ended_iff.mpr ⟨E.known hk, E.ended hk h⟩
  · exact hkeep (I := fun e => e.server = w.node.conn.core.server)
      (fun _ h he => h.server.trans he) rfl
  · have hd : w'.node.conn.hs = .done :=
      hkeep (I := fun e => e.hs = .done) (fun _ h => h.keepsDone) h
    exact ⟨hd, (A.wf.paramsInForce hd).trans (A.before.paramsInForce h).symm⟩

theorem call_later (R : Reachable w) (k : Call) : Later w (w.call k) := face_later R (face_call w k)

/-! ## What a call achieves -/

theorem Reachable.ready (R : Reachable w) {s : Stream} (h : w.node.conn.streams.lookup i = some s) :
    w.node.conn.ready = .ok () := by
  have hr := R.contract.ready i (by simp [journal, Connection.journal, Connection.line, h])
  have hd : w.node.conn.hs = .done := hr.1
  have hc : w.node.conn.closed = none := hr.2.1
  simp [Connection.ready, hd, hc]

theorem Reachable.known (R : Reachable w) {s : Stream} (h : w.node.conn.streams.lookup i = some s) :
    w.Known i :=
  (R.contract.ready i (by simp [journal, Connection.journal, Connection.line, h])).2.2

theorem lookup_reset (R : Reachable w) (code : UInt32) :
    (w.call (.reset i code)).node.conn.streams.lookup i = none := by
  cases h : w.node.conn.streams.lookup i with
  | none => simp only [call, Node.call, Connection.reset, h]; split <;> exact h
  | some s =>
    simp only [call, Node.call, Connection.reset, h, R.ready h]
    exact (Connection.lookup_dropStream i).trans (if_pos rfl)

theorem shut_reset (R : Reachable w) (hk : w.Known i) (code : UInt32) :
    (w.call (.reset i code)).Shut i := by
  refine ⟨(call_later R _).known i hk, fun s hs => ?_⟩
  rw [lookup_reset R] at hs
  cases hs

theorem shut_finish (R : Reachable w) (hk : w.Known i) : (w.call (.finish i)).Shut i := by
  refine ⟨(call_later R _).known i hk, fun s' hs' => ?_⟩
  cases h : w.node.conn.streams.lookup i with
  | none =>
    have hsame : (w.node.conn.finish i).1 = w.node.conn := by
      unfold Connection.finish
      split
      · rfl
      · rw [h]
    have hs' : (w.node.conn.finish i).1.streams.lookup i = some s' := hs'
    rw [hsame, h] at hs'
    cases hs'
  | some s =>
    have hs' : (w.node.conn.finish i).1.streams.lookup i = some s' := hs'
    simp only [Connection.finish, R.ready h, h] at hs'
    cases ho : s.localOpen with
    | false =>
      simp only [ho, Bool.not_false, if_true, h, Option.some.injEq] at hs'
      exact hs' ▸ ho
    | true =>
      simp only [ho, Bool.not_true, Bool.false_eq_true, if_false] at hs'
      split at hs'
      · have hs' := Connection.lookup_of_maybeForget hs'
        simp only [Connection.queueFin, Connection.pushControl, Connection.lookup_setStream,
          Option.some.injEq] at hs'
        rw [← hs']
      · rw [Connection.lookup_setStream, Option.some.injEq] at hs'
        rw [← hs']

/-- A message that is not too large is refused for good only if nothing can be sent at all. -/
theorem shut_of_send (R : Reachable w) (hk : w.Known i) {msg : Bytes} {compress : Compress}
    {e : StreamError} (hlen : msg.length ≤ w.node.conn.paramsInForce.maxMessage.toNat)
    (h : (w.node.conn.send i msg compress).2 = .error e) (he : e ≠ .wouldBlock) : w.Shut i := by
  refine ⟨hk, fun s hs => Bool.eq_false_iff.mpr fun ho => he ?_⟩
  simp only [Connection.send, R.ready hs, hs, ho, Nat.not_lt.mpr hlen, if_false, Bool.not_true,
    Bool.false_eq_true] at h
  split at h
  · cases h
    rfl
  · split at h
    · cases h
    · split at h <;> cases h

/-- Nothing is accepted on a stream that is shut. -/
theorem Shut.send (S : w.Shut i) {msg : Bytes} {compress : Compress} :
    ∃ e, (w.node.conn.send i msg compress).2 = .error e ∧ e ≠ .wouldBlock := by
  unfold Connection.send
  split
  · rename_i e he
    refine ⟨e, rfl, ?_⟩
    rintro rfl
    unfold Connection.ready at he
    split at he
    · cases he
    · split at he <;> cases he
  · dsimp only
    split
    · exact ⟨_, rfl, (by rintro ⟨⟩)⟩
    · split
      · exact ⟨_, rfl, (by rintro ⟨⟩)⟩
      · rename_i s hs
        rw [S.closed s hs]
        exact ⟨_, rfl, (by rintro ⟨⟩)⟩

/-- Taking a message pops it off the inbox. -/
theorem recvMsg_ok (R : Reachable w) {msg : Bytes} (h : (w.node.conn.recvMsg i).2 = .ok msg) :
    ∃ wireLen rest, w.inbox i = (msg, wireLen) :: rest ∧ (w.call (.recvMsg i)).inbox i = rest ∧
      (w.call (.recvMsg i)).node.taken i = w.node.taken i ++ [msg] := by
  have htaken : (w.call (.recvMsg i)).node.taken i = w.node.taken i ++ [msg] := by
    simp [call, Node.call, h, Node.take]
  have hinbox : (w.call (.recvMsg i)).inbox i =
      (((w.node.conn.recvMsg i).1.streams.lookup i).map (·.inbox)).getD [] := by
    simp only [inbox, call, Node.call, h]
    rfl
  rw [hinbox, htaken]
  cases hs : w.node.conn.streams.lookup i with
  | none =>
    simp only [Connection.recvMsg, hs] at h
    split at h <;> cases h
  | some s =>
    simp only [Connection.recvMsg, R.ready hs, hs] at h ⊢
    cases hi : s.inbox with
    | nil => simp [hi] at h
    | cons m rest =>
      obtain ⟨m, wireLen⟩ := m
      have hbox : w.inbox i = (m, wireLen) :: rest := by simp [inbox, hs, hi]
      rw [hi] at h
      dsimp only at h ⊢
      split
      · rename_i ho
        rw [if_pos ho] at h
        cases h
        refine ⟨wireLen, rest, hbox, ?_, trivial⟩
        split
        · simp [Connection.queueWindowUpdate, Connection.pushControl, Connection.lookup_setStream]
        · simp [Connection.lookup_setStream]
      · rename_i ho
        rw [if_neg ho] at h
        cases h
        refine ⟨wireLen, rest, hbox, ?_, trivial⟩
        dsimp only
        split
        · rename_i hrest
          rw [List.isEmpty_iff.mp hrest]
          cases hf : ((Connection.setStream w.node.conn i
              { s with inbox := [] }).finishedStream i).streams.lookup i with
          | none => simp
          | some s' =>
            have hs' := Connection.lookup_of_maybeForget hf
            simp only [Connection.pushEvent, Connection.lookup_setStream, Option.some.injEq] at hs'
            simp [← hs']
        · simp [Connection.lookup_setStream]

/-- A refused `recv_msg` changes nothing: no message is there. -/
theorem recvMsg_error (R : Reachable w) {e : StreamError}
    (h : (w.node.conn.recvMsg i).2 = .error e) : w.call (.recvMsg i) = w ∧ w.inbox i = [] := by
  have hcall : w.call (.recvMsg i) =
      { w with node := { w.node with conn := (w.node.conn.recvMsg i).1 } } := by
    simp [call, Node.call, h]
  rw [hcall]
  cases hs : w.node.conn.streams.lookup i with
  | none =>
    simp only [Connection.recvMsg, hs, inbox]
    split <;> simp
  | some s =>
    simp only [Connection.recvMsg, R.ready hs, hs, inbox] at h ⊢
    cases hi : s.inbox with
    | nil => simp [hi]
    | cons m rest =>
      obtain ⟨m, wireLen⟩ := m
      rw [hi] at h
      dsimp only at h
      split at h <;> cases h

omit [ThirdParty] in
/-- No message waits on a stream that has ended. -/
theorem Ended.inbox (E : w.Ended i) : w.inbox i = [] := by
  unfold Watch.inbox
  cases hs : w.node.conn.streams.lookup i with
  | none => rfl
  | some s => simp [(E.closed s hs).2]

/-- A stream whose end was told has ended. -/
theorem Reachable.ended (R : Reachable w) (h : .finished i ∈ w.told) : w.Ended i := by
  have C := R.contract
  refine ended_iff.mpr ⟨C.known _ h i rfl, fun x hx => ?_⟩
  exact ((C.fits i).finished x hx).mp h

/-- A stream whose reset was told is gone. -/
theorem Reachable.lookup_of_reset (R : Reachable w) {code : UInt32} (h : .reset i code ∈ w.told) :
    w.node.conn.streams.lookup i = none := by
  have hn : (w.node.conn.streams.lookup i).map _ = none := (R.contract.fits i).reset code h
  exact Option.map_eq_none_iff.mp hn

end Watch

end TunnelWeaver.Mux
