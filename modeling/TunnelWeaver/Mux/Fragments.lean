import TunnelWeaver.Mux.Usage

/-! Messages cut off in the middle. Whether a message is in progress is read off the reassembly
buffer: the buffer holds the bodies of the fragments heard since the last complete message, so a FIN
is refused exactly when one of them is not empty. -/

namespace TunnelWeaver.Mux

/-! ## What a peer sent on a stream -/

section
variable [ThirdParty]

/-- The body and the MORE flag of the DATA frame for stream `id` that an input brings. -/
def Input.fragment (c : Connection) (id : StreamId) : Input → Option (Bytes × Bool)
  | .recv _ bytes =>
    match Frame.parse bytes with
    | .ok f =>
      if f.streamId = id ∧ f.frameType = .data then
        (Connection.parseData c.paramsInForce id f.payload).toOption
      else none
    | .error _ => none
  | _ => none

/-- A connection with the fragments its peer sent on each stream. -/
structure Heard where
  node : Node
  heard : StreamId → List (Bytes × Bool)

/-- The fragments of the message in progress: those after the last without the MORE flag. -/
def unfinished (heard : List (Bytes × Bool)) : List Bytes :=
  heard.foldl (fun bodies f => if f.2 then bodies ++ [f.1] else []) []

namespace Heard

def face (h : Heard) (x : Input) : Option Heard :=
  (h.node.face x).map fun node =>
    ⟨node, fun id => h.heard id ++ (x.fragment h.node.conn id).toList⟩

/-- A new connection after some inputs. -/
def exposed (cfg : Config) (now : Instant) (inputs : List Input) : Option Heard :=
  Automaton.run face ⟨.new (.new cfg now), fun _ => []⟩ inputs

end Heard

end

theorem unfinished_append (heard : List (Bytes × Bool)) (body : Bytes) (more : Bool) :
    unfinished (heard ++ [(body, more)]) = if more then unfinished heard ++ [body] else [] := by
  simp [unfinished]

/-! ## Steps that keep the buffers -/

namespace Endpoint
variable [ThirdParty] {P : Params} {e e' e'' : Endpoint} {i : StreamId}

/-- The buffer of a stream is what it was, or empty for a stream nobody knew of. -/
structure KeepsPartial (i : StreamId) (e e' : Endpoint) : Prop where
  known : e.Known i → e'.Known i
  done : e.hs = .done → e'.hs = .done
  isOpen : e'.closed = false → e.closed = false
  buffer : ∀ s' h', e'.streams i = some (s', h') →
    (∃ s h, e.streams i = some (s, h) ∧ h'.partialMsg = h.partialMsg) ∨
      ¬e.Known i ∧ h'.partialMsg = []

omit [ThirdParty] in
theorem KeepsPartial.refl : KeepsPartial i e e :=
  ⟨id, id, id, fun s' h' h => .inl ⟨s', h', h, rfl⟩⟩

omit [ThirdParty] in
theorem KeepsPartial.trans (H : KeepsPartial i e e') (H' : KeepsPartial i e' e'') :
    KeepsPartial i e e'' where
  known h := H'.known (H.known h)
  done h := H'.done (H.done h)
  isOpen h := H.isOpen (H'.isOpen h)
  buffer s'' h'' hs := by
    rcases H'.buffer s'' h'' hs with ⟨s', h', hs', heq⟩ | ⟨hk, hnil⟩
    · rw [heq]
      exact H.buffer s' h' hs'
    · exact .inr ⟨fun h => hk (H.known h), hnil⟩

omit [ThirdParty] in
/-- One stream changes, and its buffer does not. -/
theorem buffer_update {j : StreamId} {x : Option (SendHalf × RecvHalf)}
    (hs : e'.streams = Function.update e.streams j x)
    (hx : ∀ s' h', x = some (s', h') →
      (∃ s h, e.streams j = some (s, h) ∧ h'.partialMsg = h.partialMsg) ∨
        ¬e.Known j ∧ h'.partialMsg = []) {s' : SendHalf} {h' : RecvHalf}
    (h : e'.streams i = some (s', h')) :
    (∃ s h, e.streams i = some (s, h) ∧ h'.partialMsg = h.partialMsg) ∨
      ¬e.Known i ∧ h'.partialMsg = [] := by
  rw [hs] at h
  by_cases hij : i = j
  · subst hij
    rw [Function.update_self] at h
    exact hx s' h' h
  · rw [Function.update_of_ne hij] at h
    exact .inl ⟨s', h', h, rfl⟩

theorem Step.isOpen {l : Label} (H : Step P e l e') (h : e'.closed = false) :
    e.closed = false := by
  cases H <;> first | exact h | cases h

omit [ThirdParty] in
/-- The halves after a frame are those of a live view. -/
theorem seen_eq_some {j : StreamId} {v : View} {s' : SendHalf} {h' : RecvHalf}
    (h : e.seen j v = some (s', h')) :
    v = .live h' ∧ ∃ h₀, e.streams j = some (s', h₀) ∧ e.view j = .live h₀ := by
  cases v with
  | unknown | gone => cases h
  | live h₁ =>
    obtain ⟨⟨s, h₀⟩, hs, heq⟩ := Option.map_eq_some_iff.mp h
    cases heq
    exact ⟨rfl, h₀, hs, view_live hs⟩

/-- An accepted DATA frame appends its body, or completes the message. -/
theorem Step.deliversPartial {f : Frame} (H : Step P e (.consume f) e') (hc : e.closed = false)
    (hf : f.frameType = .data) {s' : SendHalf} {h' : RecvHalf}
    (hs' : e'.streams f.streamId = some (s', h')) :
    e.Ready ∧ ∃ s h data more, e.streams f.streamId = some (s, h) ∧
      Connection.parseData P f.streamId f.payload = .ok (data, more) ∧
      h'.partialMsg = if more then h.partialMsg ++ data else [] := by
  cases H with
  | ignore h => simp [h] at hc
  | challenge _ _ h | giveUp _ _ h | hello _ _ h | refuse _ _ h | welcome _ _ h | opened _ h
  | granted _ h => simp [hf] at h
  | bye _ h => simp [hf] at h
  | pinged _ h => simp [hf] at h
  | @framed _ v hr ht hopen hv =>
    rw [set_streams, if_pos rfl] at hs'
    obtain ⟨rfl, h, hs, hview⟩ := seen_eq_some hs'
    rw [hview] at hv
    unfold View.step at hv
    simp only [hf] at hv
    split at hv
    · cases hv
    · rename_i data more hparse
      obtain ⟨h₁, hdata, heq⟩ := Option.map_eq_some_iff.mp hv
      cases heq
      obtain ⟨-, -, -, rfl⟩ := RecvHalf.onData_eq_some.mp hdata
      refine ⟨hr, s', h, data, more, hs, hparse, ?_⟩
      cases more <;> rfl

/-- Only a DATA frame of the stream moves its buffer. -/
theorem Step.keepsPartial {l : Label} (G : e.Good P) (H : Step P e l e')
    (hl : ∀ f, l = .consume f → ¬(f.streamId = i ∧ f.frameType = .data)) :
    KeepsPartial i e e' := by
  refine ⟨H.known, H.keepsDone, H.isOpen, fun s' h' hs' => ?_⟩
  cases H with
  | emitPriority | finished | polled | conn | ignore | challenge | hello | welcome | pinged =>
    exact .inl ⟨s', h', hs', rfl⟩
  | close | giveUp | refuse | bye => cases hs'
  | emitControl | granted =>
    refine buffer_update rfl (fun s' h' hx => .inl ?_) hs'
    obtain ⟨⟨s, h⟩, hs, heq⟩ := Option.map_eq_some_iff.mp hx
    cases heq
    exact ⟨s, h, hs, rfl⟩
  | emitData _ hi | send hi | take hi | finish hi =>
    refine buffer_update rfl (fun s' h' hx => .inl ⟨_, _, hi, ?_⟩) hs'
    cases hx
    rfl
  | reset | drop => exact buffer_update rfl (fun s' h' hx => by cases hx) hs'
  | «open» =>
    refine buffer_update rfl (fun s' h' hx => .inr ⟨G.not_known_next, ?_⟩) hs'
    cases hx
    rfl
  | opened _ _ hp _ hlast =>
    refine buffer_update rfl (fun s' h' hx => .inr ⟨?_, ?_⟩) hs'
    · unfold Known
      rw [if_pos hp]
      omega
    · cases hx
      rfl
  | @framed f v hr ht hopen hv =>
    by_cases hi : f.streamId = i
    · have hdata : f.frameType ≠ .data := fun h => hl f rfl ⟨hi, h⟩
      refine buffer_update rfl (fun s' h' hx => .inl ?_) hs'
      obtain ⟨rfl, h, hs, hview⟩ := seen_eq_some hx
      refine ⟨s', h, hs, ?_⟩
      rw [hview] at hv
      unfold View.step at hv
      split at hv
      · rename_i heq
        exact absurd heq hopen
      · rename_i heq
        exact absurd heq hdata
      · obtain ⟨h₁, hfin, heq⟩ := Option.map_eq_some_iff.mp hv
        cases heq
        obtain ⟨-, -, rfl⟩ := RecvHalf.onFin_eq_some.mp hfin
        rfl
      · obtain ⟨r, -, heq⟩ := Option.map_eq_some_iff.mp hv
        cases heq
      all_goals cases hv
    · rw [set_streams, if_neg (Ne.symm hi)] at hs'
      exact .inl ⟨s', h', hs', rfl⟩

theorem Silent.keepsPartial (hP : P.InRange) (G : e.Good P) (H : Silent P e e') :
    KeepsPartial i e e' := by
  induction H with
  | refl => exact .refl
  | tail hs h ih => exact ih.trans (h.keepsPartial (G.silent hP hs) fun f hf => by cases hf)

theorem Act.keepsPartial {l : Label} (hP : P.InRange) (G : e.Good P) (H : Act P e l e')
    (hl : ∀ f, l = .consume f → ¬(f.streamId = i ∧ f.frameType = .data)) :
    KeepsPartial i e e' := by
  obtain ⟨e₁, h, hs⟩ := H
  exact (h.keepsPartial G hl).trans (hs.keepsPartial hP (G.step hP h))

/-- A DATA frame that an open endpoint accepts is one of a known stream. -/
theorem Step.known_of_data {f : Frame} (G : e.Good P) (H : Step P e (.consume f) e')
    (hc : e.closed = false) (hf : f.frameType = .data) : e.Ready ∧ e.Known f.streamId := by
  cases H with
  | ignore h => simp [h] at hc
  | challenge _ _ h | giveUp _ _ h | hello _ _ h | refuse _ _ h | welcome _ _ h | opened _ h
  | granted _ h => simp [hf] at h
  | bye _ h => simp [hf] at h
  | pinged _ h => simp [hf] at h
  | @framed _ v hr ht hopen hv =>
    refine ⟨hr, ?_⟩
    unfold View.step at hv
    simp only [hf] at hv
    split at hv
    · cases hv
    · unfold view at hv
      split at hv
      · cases hv
      · rename_i hview
        split at hview
        · cases hview
        · rename_i hview'
          split at hview
          · assumption
          · cases hview
      · rename_i hview
        split at hview
        · rename_i hs
          exact (G.streams _ _ _ hs).2.1
        · split at hview <;> cases hview

end Endpoint

namespace Connection
variable [ThirdParty] {c : Connection}

theorem isSome_closed_fail (e : ProtocolError) : (c.fail e).1.closed.isSome = true := by
  unfold fail closeInternal
  split
  · assumption
  · rfl

theorem isSome_closed_of_recv_error {now : Instant} {bytes : Bytes} {e : ProtocolError}
    (h : (c.recv now bytes).2 = .error e) : (c.recv now bytes).1.closed.isSome = true := by
  unfold recv at h ⊢
  dsimp only at h ⊢
  split at h
  · cases h
  · rename_i hc
    rw [if_neg hc]
    split
    · exact isSome_closed_fail _
    · rename_i f hf
      rw [hf] at h
      unfold recvFrame at h ⊢
      dsimp only at h ⊢
      split
      · rename_i heq
        rw [heq] at h
        cases h
      · exact isSome_closed_fail _

end Connection

/-! ## What the buffer holds -/

namespace Node
variable [ThirdParty] {n n' : Node} {i : StreamId}

open Connection (Sound)
open Endpoint (KeepsPartial)

theorem call_keepsPartial (S : n.conn.Sound) (k : Call) :
    KeepsPartial i n.conn.core (n.call k).conn.core := by
  obtain ⟨P, hP, W, G⟩ := S
  have hsame : ∀ {e : Endpoint}, e = n.conn.core → KeepsPartial i n.conn.core e :=
    fun heq => heq ▸ .refl
  cases k with
  | «open» cls => exact (Connection.open_refines W G cls).1.keepsPartial hP G
  | send id msg compress =>
    obtain ⟨-, h⟩ := Connection.send_refines hP W G id msg compress
    dsimp only [Node.call]
    split
    · rename_i hok
      rw [hok] at h
      exact h.keepsPartial hP G fun f hf => by cases hf
    · rename_i e hok
      rw [hok] at h
      exact hsame h
  | recvMsg id =>
    obtain ⟨-, h⟩ := Connection.recvMsg_refines W G id
    dsimp only [Node.call]
    split
    · rename_i msg hok
      rw [hok] at h
      exact h.keepsPartial hP G fun f hf => by cases hf
    · rename_i e hok
      rw [hok] at h
      exact hsame h
  | finish id => exact (Connection.finish_refines W id).1.keepsPartial hP G
  | reset id code => exact (Connection.reset_refines W id code).1.keepsPartial hP G
  | setClass id cls => exact hsame (Connection.setClass_refines W G id cls).1
  | close reason => exact (Connection.close_refines W reason).1.keepsPartial hP G
  | pollEvent =>
    obtain ⟨-, h⟩ := Connection.pollEvent_refines W
    split at h
    · exact h.keepsPartial hP G fun f hf => by cases hf
    · exact hsame h
  | setBytesSink => exact hsame rfl

/-- Only a DATA frame of the stream moves its buffer. -/
theorem face_keepsPartial {x : Input} (S : n.conn.Sound) (H : n.face x = some n')
    (hx : ∀ now bytes f, x = .recv now bytes → Frame.parse bytes = .ok f →
      ¬(f.streamId = i ∧ f.frameType = .data)) : KeepsPartial i n.conn.core n'.conn.core := by
  cases x with
  | call k =>
    cases H
    exact call_keepsPartial S k
  | handleTimeout now stillValid fuel =>
    obtain ⟨conn, hconn, rfl⟩ := Option.map_eq_some_iff.mp H
    obtain ⟨P, hP, W, G⟩ := S
    exact (Connection.handleTimeout_refines W hconn).1.keepsPartial hP G
  | pollTransmit =>
    cases H
    obtain ⟨P, hP, W, G⟩ := S
    generalize hr : n.conn.pollTransmit = r
    obtain ⟨conn, out⟩ := r
    obtain ⟨-, h⟩ := Connection.pollTransmit_refines W G hr
    cases out with
    | none => exact h ▸ .refl
    | some bytes =>
      obtain ⟨f, rfl, hact⟩ := h
      exact hact.keepsPartial hP G fun f hf => by cases hf
  | recv now bytes =>
    cases H
    cases hf : Frame.parse bytes with
    | error e =>
      obtain ⟨P, hP, W, G⟩ := S
      exact (Connection.recv_garbled W now hf).2.keepsPartial hP G
    | ok f =>
      obtain ⟨P, hP, W, G, hann⟩ := S.announces f
      obtain ⟨-, h⟩ := Connection.recv_refines W G now hf (Frame.streamId_lt hf) fun _ => hann
      split at h
      · refine h.keepsPartial hP G fun f' hf' => ?_
        cases hf'
        exact hx now bytes f rfl hf
      · exact h.keepsPartial hP G

/-- A DATA frame that leaves its stream tracked is a fragment of it, appended or completing. -/
theorem recv_data {now : Instant} {bytes : Bytes} {f : Frame} (S : n.conn.Sound)
    (hf : Frame.parse bytes = .ok f) (ht : f.frameType = .data)
    (ho : (n.conn.recv now bytes).1.closed = none) :
    n.conn.hs = .done ∧ n.conn.core.Known f.streamId ∧ (n.conn.recv now bytes).1.hs = .done ∧
      (n.conn.recv now bytes).1.core.Known f.streamId ∧
      ∀ s', (n.conn.recv now bytes).1.streams.lookup f.streamId = some s' →
        ∃ s body more, n.conn.streams.lookup f.streamId = some s ∧
          Connection.parseData n.conn.paramsInForce f.streamId f.payload = .ok (body, more) ∧
          s'.partialMsg = if more then s.partialMsg ++ body else [] := by
  obtain ⟨P, hP, W, G, hann⟩ := S.announces f
  obtain ⟨-, h⟩ := Connection.recv_refines W G now hf (Frame.streamId_lt hf) fun _ => hann
  cases hres : (n.conn.recv now bytes).2 with
  | error e =>
    have hclosed := Connection.isSome_closed_of_recv_error hres
    rw [ho] at hclosed
    cases hclosed
  | ok u =>
    rw [hres] at h
    obtain ⟨e₁, h₁, hs⟩ := h
    have G₁ := G.step hP h₁
    have K := hs.keepsPartial (i := f.streamId) hP G₁
    have hc₁ : e₁.closed = false := K.isOpen (by simp [Connection.core, ho])
    have hc : n.conn.core.closed = false := h₁.isOpen hc₁
    obtain ⟨hr, hk⟩ := h₁.known_of_data G hc ht
    refine ⟨hr.done, hk, K.done (h₁.keepsDone hr.done), K.known (h₁.known hk), fun s' hs' => ?_⟩
    rcases K.buffer _ _ (Connection.core_streams hs') with ⟨t, r, htr, heq⟩ | ⟨hk₁, -⟩
    · obtain ⟨-, t₀, r₀, body, more, hs₀, hparse, hbuf⟩ := h₁.deliversPartial hc ht htr
      obtain ⟨s, hs, hst⟩ := Option.map_eq_some_iff.mp hs₀
      cases hst
      refine ⟨s, body, more, hs, ?_, heq.trans hbuf⟩
      rw [W.paramsInForce hr.done]
      exact hparse
    · exact absurd (h₁.known hk) hk₁

end Node

namespace Heard
variable [ThirdParty] {h h' : Heard}

/-- The buffer of a stream holds the bodies of its unfinished message. -/
structure Reassembles (h : Heard) : Prop where
  buffer : ∀ id s, h.node.conn.streams.lookup id = some s →
    s.partialMsg = (unfinished (h.heard id)).flatten
  known : h.node.conn.closed = none → ∀ id, h.heard id ≠ [] →
    h.node.conn.hs = .done ∧ h.node.conn.core.Known id

theorem fragment_eq_none {c : Connection} {id : StreamId} {x : Input}
    (hx : ∀ now bytes f, x = .recv now bytes → Frame.parse bytes = .ok f →
      ¬(f.streamId = id ∧ f.frameType = .data)) : x.fragment c id = none := by
  cases x with
  | call | handleTimeout | pollTransmit => rfl
  | recv now bytes =>
    cases hf : Frame.parse bytes with
    | error e => simp only [Input.fragment, hf]
    | ok f =>
      simp only [Input.fragment, hf]
      exact if_neg (hx now bytes f rfl hf)

/-- The part of the invariant about one stream. -/
theorem Reassembles.stream {x : Input} {node : Node} (R : Reassembles h) (S : h.node.conn.Sound)
    (S' : node.conn.Sound) (H : h.node.face x = some node) (id : StreamId) :
    (∀ s', node.conn.streams.lookup id = some s' → s'.partialMsg =
      (unfinished (h.heard id ++ (x.fragment h.node.conn id).toList)).flatten) ∧
      (node.conn.closed = none → h.heard id ++ (x.fragment h.node.conn id).toList ≠ [] →
        node.conn.hs = .done ∧ node.conn.core.Known id) := by
  have hopen : ∀ s', node.conn.streams.lookup id = some s' → node.conn.closed = none := by
    intro s' hs'
    obtain ⟨P, -, -, G⟩ := S'
    simpa [Connection.core] using (G.ready (Connection.core_streams hs')).isOpen
  by_cases hx : ∃ now bytes f, x = .recv now bytes ∧ Frame.parse bytes = .ok f ∧
      f.streamId = id ∧ f.frameType = .data
  · obtain ⟨now, bytes, f, rfl, hf, rfl, ht⟩ := hx
    cases H
    refine ⟨fun s' hs' => ?_, fun ho _ => ?_⟩
    · obtain ⟨-, -, -, -, hdata⟩ := Node.recv_data S hf ht (hopen s' hs')
      obtain ⟨s, body, more, hs, hparse, hbuf⟩ := hdata s' hs'
      have hfrag : Input.fragment h.node.conn f.streamId (.recv now bytes) = some (body, more) := by
        simp only [Input.fragment, hf, ht, and_self, if_true, hparse, Except.toOption]
      rw [hbuf, hfrag, Option.toList_some, unfinished_append, R.buffer _ _ hs]
      cases more <;> simp
    · obtain ⟨-, -, hd, hk, -⟩ := Node.recv_data S hf ht ho
      exact ⟨hd, hk⟩
  · have hx' : ∀ now bytes f, x = .recv now bytes → Frame.parse bytes = .ok f →
        ¬(f.streamId = id ∧ f.frameType = .data) :=
      fun now bytes f hrecv hf hdata => hx ⟨now, bytes, f, hrecv, hf, hdata⟩
    have K := Node.face_keepsPartial S H hx'
    have hbefore : node.conn.closed = none → h.node.conn.closed = none := by
      intro ho
      have hcore := K.isOpen (by simp [Connection.core, ho])
      simpa [Connection.core] using hcore
    rw [fragment_eq_none hx', Option.toList_none, List.append_nil]
    refine ⟨fun s' hs' => ?_, fun ho hne => ?_⟩
    · rcases K.buffer _ _ (Connection.core_streams hs') with ⟨t, r, htr, heq⟩ | ⟨hk, hnil⟩
      · obtain ⟨s, hs, hst⟩ := Option.map_eq_some_iff.mp htr
        cases hst
        exact heq.trans (R.buffer id s hs)
      · have hheard : h.heard id = [] := by
          by_contra hne
          exact hk (R.known (hbefore (hopen s' hs')) id hne).2
        rw [hheard]
        exact hnil
    · obtain ⟨hd, hk⟩ := R.known (hbefore ho) id hne
      exact ⟨K.done hd, K.known hk⟩

theorem exposed_reassembles {cfg : Config} {now : Instant} {inputs : List Input}
    (H : exposed cfg now inputs = some h) : h.node.conn.Sound ∧ Reassembles h := by
  have hrun := Automaton.run_invariant (p := fun _ => True)
    (I := fun h : Heard => (h.node.conn.Sound ∧ ∃ fs : List Frame, h.node.wire = fs.map Frame.encode) ∧
      Reassembles h)
    (fun {h x h'} hI _ H => ?_) (fun _ _ => trivial)
    ⟨⟨Connection.sound_new cfg now, [], rfl⟩, ?_⟩ H
  · exact ⟨hrun.1.1, hrun.2⟩
  · obtain ⟨⟨S, fs, hw⟩, R⟩ := hI
    obtain ⟨node, hface, rfl⟩ := Option.map_eq_some_iff.mp H
    obtain ⟨P, fs', A⟩ := Node.face_advances S hw hface
    have hstream := R.stream S A.sound hface
    exact ⟨⟨A.sound, fs', A.wire⟩, fun id => (hstream id).1, fun ho id => (hstream id).2 ho⟩
  · refine ⟨fun id s hs => ?_, fun _ id hne => absurd rfl hne⟩
    have hnone : (Connection.new cfg now).streams.lookup id = none := by
      unfold Connection.new
      dsimp only
      split <;> rfl
    rw [show (Node.new (.new cfg now)).conn = Connection.new cfg now from rfl, hnone] at hs
    cases hs

end Heard

/-! ## FIN inside a message -/

namespace Connection
variable [ThirdParty] {c : Connection}

omit [ThirdParty] in
/-- A FIN for a stream that exists or existed is refused when its message is not complete, as far
as the buffer tells, or when it is the second one. -/
theorem onFin_error {f : Frame} (hk : c.known f.streamId = true) :
    (∃ what, (c.onFin f).2 = .error (.stateViolation what)) ↔
      ∃ s, c.streams.lookup f.streamId = some s ∧ (s.remoteOpen = false ∨ s.partialMsg ≠ []) := by
  cases hs : c.streams.lookup f.streamId with
  | none =>
    have hnone : c.streamMut f.streamId = .ok none := by
      unfold streamMut
      rw [hs]
      exact if_pos hk
    simp [onFin, withStream, hnone]
  | some s =>
    have hsome : c.streamMut f.streamId = .ok (some s) := by
      unfold streamMut
      rw [hs]
    cases ho : s.remoteOpen with
    | false => simp [onFin, withStream, hsome, ho]
    | true =>
      cases hp : s.partialMsg with
      | nil => simp [onFin, withStream, hsome, ho, hp]
      | cons b rest => simp [onFin, withStream, hsome, ho, hp]

/-- An open connection answers a frame with what its handler says. -/
theorem recv_result (now : Instant) {bytes : Bytes} {f : Frame} (hc : c.closed = none)
    (hf : Frame.parse bytes = .ok f) : ∃ timers n,
      (c.recv now bytes).2 = (({ c with timers } : Connection).dispatch n f).2 := by
  refine ⟨(c.observe now).timers.onRecv (c.observe now).timers.lastNow,
    (c.observe now).timers.lastNow, ?_⟩
  unfold recv
  dsimp only
  rw [if_neg (by simp [observe, hc]), hf]
  unfold recvFrame
  dsimp only
  split
  · rename_i heq
    exact (congrArg Prod.snd heq).symm
  · rename_i heq
    exact (congrArg Prod.snd heq).symm

theorem recv_fin {now : Instant} {bytes : Bytes} {f : Frame} (hc : c.closed = none)
    (hs : c.hs = .done) (hk : c.known f.streamId = true) (hf : Frame.parse bytes = .ok f)
    (h0 : f.streamId ≠ 0) (ht : f.frameType = .fin) :
    (∃ what, (c.recv now bytes).2 = .error (.stateViolation what)) ↔
      ∃ s, c.streams.lookup f.streamId = some s ∧ (s.remoteOpen = false ∨ s.partialMsg ≠ []) := by
  obtain ⟨timers, n, hrecv⟩ := recv_result now hc hf
  have hdispatch : ({ c with timers } : Connection).dispatch n f =
      ({ c with timers } : Connection).onFin f := by
    simp only [dispatch, h0, if_false, afterAuth, hs, if_true, ht]
  rw [hrecv, hdispatch]
  exact onFin_error (c := { c with timers }) hk

end Connection

namespace Heard
variable [ThirdParty]

/-- After a fragment that announces more, a FIN is refused and closes the connection exactly when
the stream is still tracked and either had its FIN already or a body of its unfinished message is
not empty. -/
theorem fin_inside_message_iff {cfg : Config} {now now' : Instant} {inputs : List Input}
    {h : Heard} {f : Frame} {bytes : Bytes} (H : exposed cfg now inputs = some h)
    (hlast : (h.heard f.streamId).getLast?.any (·.2) = true) (hf : Frame.parse bytes = .ok f)
    (ht : f.frameType = .fin) :
    ((∃ what, (h.node.conn.recv now' bytes).2 = .error (.stateViolation what)) ∧
        (h.node.conn.recv now' bytes).1.closed.isSome = true) ↔
      ∃ s, h.node.conn.streams.lookup f.streamId = some s ∧
        (s.remoteOpen = false ∨ ∃ body ∈ unfinished (h.heard f.streamId), body ≠ []) := by
  obtain ⟨⟨P, -, -, G⟩, R⟩ := exposed_reassembles H
  have hne : h.heard f.streamId ≠ [] := by
    intro heq
    simp [heq] at hlast
  have hbuffer : (∃ s, h.node.conn.streams.lookup f.streamId = some s ∧
      (s.remoteOpen = false ∨ s.partialMsg ≠ [])) ↔
      ∃ s, h.node.conn.streams.lookup f.streamId = some s ∧
        (s.remoteOpen = false ∨ ∃ body ∈ unfinished (h.heard f.streamId), body ≠ []) := by
    refine exists_congr fun s => and_congr_right fun hs => or_congr_right ?_
    rw [R.buffer _ s hs, ne_eq, List.flatten_eq_nil_iff]
    simp
  rw [and_iff_left_of_imp fun h => h.elim fun _ hw => Connection.isSome_closed_of_recv_error hw]
  rw [← hbuffer]
  cases hc : h.node.conn.closed with
  | some reason =>
    -- a closed connection ignores the frame and tracks no stream
    have hok : (h.node.conn.recv now' bytes).2 = .ok () := by
      unfold Connection.recv
      dsimp only
      rw [if_pos (by simp [Connection.observe, hc])]
    constructor
    · rintro ⟨what, hwhat⟩
      rw [hok] at hwhat
      cases hwhat
    · rintro ⟨s, hs, -⟩
      have hopen := (G.ready (Connection.core_streams hs)).isOpen
      simp [Connection.core, hc] at hopen
  | none =>
    obtain ⟨hd, hk⟩ := R.known hc _ hne
    by_cases h0 : f.streamId = 0
    · obtain ⟨timers, n, hrecv⟩ := Connection.recv_result now' hc hf
      constructor
      · rintro ⟨what, hwhat⟩
        rw [hrecv, Connection.dispatch, if_pos h0, ht] at hwhat
        cases hwhat
      · rintro ⟨s, hs, -⟩
        exact absurd h0 (G.streams _ _ _ (Connection.core_streams hs)).1
    · exact Connection.recv_fin hc hd (Connection.known_iff.mpr hk) hf h0 ht

end Heard

namespace Sample

/-- The client starts a message with an empty fragment. -/
def beginning : List Input :=
  admitted ++ [.recv 0 (Frame.mk 1 .data [dataFlagMore]).encode]

/-- The client sends one byte of a message. -/
def partway : List Input :=
  admitted ++ [.recv 0 (Frame.mk 1 .data [dataFlagMore, 7]).encode]

def finBytes : Bytes := (Frame.mk 1 .fin []).encode

end Sample

open scoped Sample in
/-- A FIN after an empty fragment is taken for the end of the stream. -/
theorem fin_after_empty_fragment : ∃ h,
    Heard.exposed Sample.setup.server 0 Sample.beginning = some h ∧
      h.heard 1 = [([], true)] ∧ (h.node.conn.recv 0 Sample.finBytes).2 = .ok () ∧
      .finished 1 ∈ (h.node.conn.recv 0 Sample.finBytes).1.events := by
  have h : (Heard.exposed Sample.setup.server 0 Sample.beginning).any (fun h =>
      decide (h.heard 1 = [([], true)]) &&
      (decide ((h.node.conn.recv 0 Sample.finBytes).2 = .ok ()) &&
      decide (.finished 1 ∈ (h.node.conn.recv 0 Sample.finBytes).1.events))) = true := by
    decide +kernel
  obtain ⟨h, hh, hc⟩ := (Option.any_eq_true _ _).mp h
  simp only [Bool.and_eq_true, decide_eq_true_eq] at hc
  exact ⟨h, hh, hc⟩

open scoped Sample in
theorem fin_inside_message_partway : ∃ h,
    Heard.exposed Sample.setup.server 0 Sample.partway = some h ∧
      (∃ what, (h.node.conn.recv 0 Sample.finBytes).2 = .error (.stateViolation what)) ∧
      (h.node.conn.recv 0 Sample.finBytes).1.closed.isSome = true := by
  have h : (Heard.exposed Sample.setup.server 0 Sample.partway).any (fun h =>
      decide (h.heard 1 = [([7], true)]) && (h.node.conn.streams.lookup 1).isSome) = true := by
    decide +kernel
  obtain ⟨h, hh, hc⟩ := (Option.any_eq_true _ _).mp h
  simp only [Bool.and_eq_true, decide_eq_true_eq] at hc
  obtain ⟨s, hs⟩ := Option.isSome_iff_exists.mp hc.2
  have hparse : Frame.parse Sample.finBytes = .ok ⟨1, .fin, []⟩ := by decide +kernel
  refine ⟨h, hh, (Heard.fin_inside_message_iff hh ?_ hparse rfl).mpr ⟨s, hs, .inr ⟨[7], ?_, ?_⟩⟩⟩
  · rw [show (Frame.mk 1 .fin []).streamId = 1 from rfl, hc.1]
    rfl
  · rw [show (Frame.mk 1 .fin []).streamId = 1 from rfl, hc.1]
    decide
  · decide

end TunnelWeaver.Mux
