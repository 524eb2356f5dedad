import TunnelWeaver.Mux.Exposed

/-! What the application of a connection sees: the handshake, the streams with the messages waiting
on them, and every event it was or will be told. `Journal.Calm` is what may happen while the
connection is open, `Journal.Closing` how it ends; `Journal.Contract` holds along both. -/

namespace TunnelWeaver.Mux

namespace Event

/-- The stream an event is about. -/
def streamId : Event → Option StreamId
  | streamOpened id _ | readable id | writable id _ | finished id | reset id _ => some id
  | authenticated .. | rejected .. | closed _ => none

def isAuthenticated : Event → Bool
  | authenticated .. => true
  | _ => false

def isReset : Event → Bool
  | reset .. => true
  | _ => false

def isClosed : Event → Bool
  | closed _ => true
  | _ => false

def isOpening : Event → Bool
  | streamOpened .. => true
  | _ => false

def isFinished : Event → Bool
  | finished _ => true
  | _ => false

/-- The events of a close: a reset for each stream, then `Closed`. -/
def closing (ids : List StreamId) (reason : CloseReason) : List Event :=
  ids.map (reset · rstCodeConnectionClosed) ++ [closed reason]

theorem mem_closing {ids : List StreamId} {reason : CloseReason} {e : Event} :
    e ∈ closing ids reason ↔
      (∃ id ∈ ids, e = reset id rstCodeConnectionClosed) ∨ e = closed reason := by
  simp [closing, eq_comm]

/-- `b` may come some time after `a`. -/
structure Before (a b : Event) : Prop where
  closed : a.isClosed = false
  authenticated : b.isAuthenticated = false
  same : ∀ id, a.streamId = some id → b.streamId = some id →
    a.isReset = false ∧ b.isOpening = false ∧ (a.isFinished = true → b.isFinished = false)

end Event

/-- A stream as its application sees it: whether the peer may still send and the messages waiting,
while it is tracked; the messages that arrived on it, and those that `recv_msg` returned. -/
structure Line where
  stream : Option (Bool × List Bytes)
  arrived : List Bytes
  taken : List Bytes

namespace Line

/-- Nobody has used the id. -/
def unused : Line := ⟨none, [], []⟩

/-- What may become of a tracked stream, with the events told of it. -/
inductive Turn (id : StreamId) : Line → Line → List Event → Prop where
  | arrived {ms a t m} : Turn id ⟨some (true, ms), a, t⟩ ⟨some (true, ms ++ [m]), a ++ [m], t⟩
    (if ms = [] then [.readable id] else [])
  | writable {x a t credit} : Turn id ⟨some x, a, t⟩ ⟨some x, a, t⟩ [.writable id credit]
  | fin {ms a t} : ms ≠ [] → Turn id ⟨some (true, ms), a, t⟩ ⟨some (false, ms), a, t⟩ []
  | ended {a t} : Turn id ⟨some (true, []), a, t⟩ ⟨some (false, []), a, t⟩ [.finished id]
  | took {o m ms a t} : (o = true ∨ ms ≠ []) →
    Turn id ⟨some (o, m :: ms), a, t⟩ ⟨some (o, ms), a, t ++ [m]⟩ []
  | tookLast {m a t} :
    Turn id ⟨some (false, [m]), a, t⟩ ⟨some (false, []), a, t ++ [m]⟩ [.finished id]
  | drop {x a t} : Turn id ⟨some x, a, t⟩ ⟨none, a, t⟩ []
  | reset {x a t code} : Turn id ⟨some x, a, t⟩ ⟨none, a, t⟩ [.reset id code]

/-- The line agrees with the events told. -/
structure Fits (id : StreamId) (told : List Event) (l : Line) : Prop where
  reset : ∀ code, .reset id code ∈ told → l.stream = none
  finished : ∀ x, l.stream = some x → (.finished id ∈ told ↔ x = (false, []))
  accounts : ∀ o ms, l.stream = some (o, ms) → l.arrived = l.taken ++ ms
  consumed : .finished id ∈ told → l.arrived = l.taken

variable {id i : StreamId} {l l' : Line} {es told : List Event}

theorem Turn.tracked (H : Turn id l l' es) : l.stream.isSome = true := by cases H <;> rfl

/-- A turn tells at most one event, about its own stream, which it did not open. -/
theorem Turn.events (H : Turn id l l' es) :
    es = [] ∨ ∃ e, es = [e] ∧ e.streamId = some id ∧ e.isOpening = false ∧
      e.isAuthenticated = false ∧ e.isClosed = false ∧
      (e.isFinished = true → l.stream ≠ some (false, [])) := by
  cases H with
  | @arrived ms _ _ _ =>
    by_cases h : ms = []
    · exact .inr ⟨.readable id, if_pos h, rfl, rfl, rfl, rfl, (by rintro ⟨⟩)⟩
    · exact .inl (if_neg h)
  | writable => exact .inr ⟨_, rfl, rfl, rfl, rfl, rfl, (by rintro ⟨⟩)⟩
  | fin | took | drop => exact .inl rfl
  | ended => exact .inr ⟨_, rfl, rfl, rfl, rfl, rfl, (by simp)⟩
  | tookLast => exact .inr ⟨_, rfl, rfl, rfl, rfl, rfl, (by simp)⟩
  | reset => exact .inr ⟨_, rfl, rfl, rfl, rfl, rfl, (by rintro ⟨⟩)⟩

theorem Fits.append (F : Fits i told l) (h : ∀ e ∈ es, e.streamId ≠ some i) :
    Fits i (told ++ es) l := by
  have hreset : ∀ code, .reset i code ∉ es := fun code he => h _ he rfl
  have hfin : .finished i ∉ es := fun he => h _ he rfl
  refine ⟨fun code he => F.reset code ?_, fun x hx => ?_, F.accounts, fun he => F.consumed ?_⟩
  · exact (List.mem_append.mp he).resolve_right (hreset code)
  · rw [List.mem_append, or_iff_left hfin]
    exact F.finished x hx
  · exact (List.mem_append.mp he).resolve_right hfin

theorem Turn.fits (H : Turn id l l' es) (F : Fits id told l) : Fits id (told ++ es) l' := by
  obtain ⟨hreset, hfin, hacc, hcons⟩ := F
  cases H with
  | @arrived ms a t m =>
    have hnot : .finished id ∉ told := by simp [hfin _ rfl]
    have hlive : ∀ code, .reset id code ∉ told := fun code h => by cases hreset code h
    have h := hacc _ _ rfl
    have hes : ∀ e ∈ (if ms = [] then [Event.readable id] else []), e = .readable id := by
      split <;> simp
    refine ⟨fun code he => ?_, fun x hx => ?_, by simp_all, fun he => ?_⟩
    · rcases List.mem_append.mp he with he | he
      · exact absurd he (hlive code)
      · cases hes _ he
    · cases hx
      refine ⟨fun he => ?_, by simp⟩
      rcases List.mem_append.mp he with he | he
      · exact absurd he hnot
      · cases hes _ he
    · rcases List.mem_append.mp he with he | he
      · exact absurd he hnot
      · cases hes _ he
  | writable => exact ⟨by simpa using hreset, by simpa using hfin, hacc, by simpa using hcons⟩
  | fin hne =>
    have hnot : .finished id ∉ told := by simp [hfin _ rfl]
    exact ⟨by simpa using hreset, by simpa [hnot] using hne, by simpa using hacc,
      by simp [hnot]⟩
  | ended =>
    have h := hacc _ _ rfl
    exact ⟨by simpa using hreset, by simp, by simpa using hacc, by simpa using h⟩
  | @took o m ms a t hne =>
    have hnot : .finished id ∉ told := by simp [hfin _ rfl]
    have h := hacc _ _ rfl
    refine ⟨by simpa using hreset, ?_, ?_, by simp [hnot]⟩
    · rintro x ⟨⟩
      simp only [List.append_nil, hnot, false_iff, Prod.mk.injEq, not_and]
      rintro rfl
      exact hne.resolve_left (by simp)
    · rintro _ _ ⟨⟩
      simpa using h
  | tookLast =>
    have h := hacc _ _ rfl
    exact ⟨by simpa using hreset, by simp, by simpa using h, by simpa using h⟩
  | drop => exact ⟨by simp, by simp, by simp, by simpa using hcons⟩
  | reset => exact ⟨by simp, by simp, by simp, by simpa using hcons⟩

end Line

/-- What the application of a connection has seen of it: `Known` are the ids that exist once a
stream was opened, `told` all events so far. -/
structure Journal where
  cfg : Config
  nonceS : Option (ByteArr 32)
  hs : HandshakeState
  closed : Option CloseReason
  Known : StreamId → Prop
  lines : StreamId → Line
  told : List Event

namespace Journal

def set (j : Journal) (id : StreamId) (l : Line) : Journal :=
  { j with lines := Function.update j.lines id l }

def tell (j : Journal) (es : List Event) : Journal := { j with told := j.told ++ es }

/-- The id is in use from now on. -/
def use (j : Journal) (id : StreamId) (Known : StreamId → Prop) : Journal :=
  { j.set id { j.lines id with stream := some (true, []) } with Known }

/-- One thing that happens on an open connection. `A` are the identities a handshake may end
with. -/
inductive Calm (A : KeyId → Prop) (j : Journal) : Journal → Prop where
  | handshake {hs} : j.hs ≠ .done → hs ≠ .done → Calm A j { j with hs }
  | authenticated {k v} : A k → j.closed = none → j.hs ≠ .done →
    Calm A j { j.tell [.authenticated k v] with hs := .done }
  | use {id Known es} : j.hs = .done → j.closed = none → ¬j.Known id →
    (∀ i, j.Known i → Known i) → Known id → (es = [] ∨ ∃ cls, es = [.streamOpened id cls]) →
    Calm A j ((j.use id Known).tell es)
  | turn {id l es} : (j.lines id).Turn id l es → Calm A j ((j.set id l).tell es)

/-- The connection closes: every tracked stream is reset, and `Closed` is the last event. A client
that was refused hears of it first. -/
inductive Closing (j : Journal) : Journal → Prop where
  | mk {refusal : List Event} {ids : List StreamId} {reason} : j.closed = none →
    (refusal = [] ∨ j.hs ≠ .done ∧ ∃ code message, refusal = [.rejected code message]) →
    ids.Nodup → (∀ id, id ∈ ids ↔ (j.lines id).stream.isSome = true) →
    Closing j { j with
      closed := some reason
      lines := fun id => { j.lines id with stream := none }
      told := j.told ++ (refusal ++ Event.closing ids reason) }

/-! ## The contract -/

/-- The events so far are in order and fit the state. -/
structure Contract (j : Journal) : Prop where
  order : j.told.Pairwise Event.Before
  first : j.hs = .done → ∃ k v rest, j.told = .authenticated k v :: rest
  early : j.hs ≠ .done → ∀ e ∈ j.told, e.streamId = none ∧ e.isAuthenticated = false
  waiting : j.hs ≠ .done → j.closed = none → j.told = []
  isOpen : j.closed = none → ∀ e ∈ j.told, e.isClosed = false
  ready : ∀ id, (j.lines id).stream.isSome = true → j.hs = .done ∧ j.closed = none ∧ j.Known id
  known : ∀ e ∈ j.told, ∀ id, e.streamId = some id → j.Known id
  fits : ∀ id, (j.lines id).Fits id j.told
  unused : ∀ id, ¬j.Known id → j.lines id = .unused

variable {A : KeyId → Prop} {j j' : Journal} {id : StreamId} {e : Event}

theorem set_lines (id i : StreamId) (l : Line) :
    (j.set id l).lines i = if i = id then l else j.lines i := Function.update_apply ..

/-- Nothing is told of a stream nobody knows. -/
theorem Contract.not_told (C : Contract j) (h : ¬j.Known id) (he : e ∈ j.told) :
    e.streamId ≠ some id := fun hs => h (C.known e he id hs)

/-- An event about a tracked stream may be told. -/
theorem Contract.before (C : Contract j) {x : Bool × List Bytes} (hs : (j.lines id).stream = some x)
    (he : e.streamId = some id) (hopen : e.isOpening = false) (hauth : e.isAuthenticated = false)
    (hfin : e.isFinished = true → x ≠ (false, [])) : ∀ a ∈ j.told, a.Before e := by
  intro a ha
  have hc := (C.ready id (by simp [hs])).2.1
  refine ⟨C.isOpen hc a ha, hauth, fun i hai hei => ?_⟩
  rw [he, Option.some.injEq] at hei
  subst hei
  refine ⟨Bool.eq_false_iff.mpr fun hr => ?_, hopen, fun haf => Bool.eq_false_iff.mpr fun hbf => ?_⟩
  · cases a with
    | reset i code =>
      cases hai
      rw [(C.fits id).reset code ha] at hs
      cases hs
    | _ => cases hr
  · cases a with
    | finished i =>
      cases hai
      exact hfin hbf (((C.fits id).finished x hs).mp ha)
    | _ => cases haf

theorem pairwise_tell (h : j.told.Pairwise Event.Before) (he : ∀ a ∈ j.told, a.Before e) :
    (j.told ++ [e]).Pairwise Event.Before := by
  refine List.pairwise_append.mpr ⟨h, List.pairwise_singleton .., fun a ha b hb => ?_⟩
  obtain rfl := List.mem_singleton.mp hb
  exact he a ha

/-- A fresh stream fits what was told, as nothing was told of it but that it opened. -/
theorem Contract.fits_use (C : Contract j) (h : ¬j.Known id) {es : List Event}
    (hes : ∀ e ∈ es, e.isOpening = true) :
    Line.Fits id (j.told ++ es) { j.lines id with stream := some (true, []) } := by
  rw [C.unused id h]
  have hreset : ∀ code, .reset id code ∉ j.told ++ es := fun code he => by
    rcases List.mem_append.mp he with he | he
    · exact C.not_told h he rfl
    · cases hes _ he
  have hfin : .finished id ∉ j.told ++ es := fun he => by
    rcases List.mem_append.mp he with he | he
    · exact C.not_told h he rfl
    · cases hes _ he
  refine ⟨fun code he => absurd he (hreset code), ?_, ?_, fun he => absurd he hfin⟩
  · rintro _ ⟨⟩
    simp [hfin]
  · rintro _ _ ⟨⟩
    rfl

theorem Contract.authenticated (C : Contract j) (hc : j.closed = none) (hs : j.hs ≠ .done) (k : KeyId)
    (v : UInt16) : Contract { j.tell [.authenticated k v] with hs := .done } := by
  have htold : j.told = [] := C.waiting hs hc
  have hline : ∀ id, (j.lines id).stream = none := fun id =>
    Option.not_isSome_iff_eq_none.mp fun h => hs (C.ready id h).1
  refine ⟨?_, fun _ => ⟨k, v, [], ?_⟩, fun h => absurd rfl h, fun h => absurd rfl h, ?_,
    fun id h => ?_, fun e he id h => ?_, fun id => ?_, C.unused⟩
  · simp [tell, htold]
  · simp [tell, htold]
  · simp [tell, htold, Event.isClosed]
  · simp [tell, hline] at h
  · simp only [tell, htold, List.nil_append, List.mem_singleton] at he
    subst he
    cases h
  · exact (C.fits id).append (by simp [Event.streamId])

theorem Contract.use (C : Contract j) {Known : StreamId → Prop} {es : List Event} (hs : j.hs = .done)
    (hc : j.closed = none) (hnew : ¬j.Known id) (hmono : ∀ i, j.Known i → Known i) (hid : Known id)
    (hes : es = [] ∨ ∃ cls, es = [.streamOpened id cls]) :
    Contract ((j.use id Known).tell es) := by
  have hid' : ∀ e ∈ es, e.streamId = some id ∧ e.isClosed = false ∧ e.isOpening = true := by
    intro e he
    obtain rfl | ⟨cls, rfl⟩ := hes
    · cases he
    · obtain rfl := List.mem_singleton.mp he
      exact ⟨rfl, rfl, rfl⟩
  refine ⟨?_, fun _ => ?_, fun h => absurd hs h, fun h => absurd hs h, fun _ e he => ?_,
    fun i h => ?_, fun e he i h => ?_, fun i => ?_, fun i h => ?_⟩
  · obtain rfl | ⟨cls, rfl⟩ := hes
    · simpa [tell, Journal.use, set] using C.order
    · refine pairwise_tell (j := j.use id Known) C.order fun a ha => ?_
      refine ⟨C.isOpen hc a ha, rfl, fun i hai hbi => ?_⟩
      cases hbi
      exact absurd hai (C.not_told hnew ha)
  · obtain ⟨k, v, rest, h⟩ := C.first hs
    exact ⟨k, v, rest ++ es, by simp [tell, Journal.use, set, h]⟩
  · rcases List.mem_append.mp he with he | he
    · exact C.isOpen hc e he
    · exact (hid' e he).2.1
  · refine ⟨hs, hc, ?_⟩
    by_cases hi : i = id
    · exact hi ▸ hid
    · refine hmono i (C.ready i ?_).2.2
      simpa [tell, Journal.use, set_lines, hi] using h
  · rcases List.mem_append.mp he with he | he
    · exact hmono i (C.known e he i h)
    · rw [(hid' e he).1, Option.some.injEq] at h
      exact h ▸ hid
  · change Line.Fits i (j.told ++ es) ((j.set id _).lines i)
    rw [set_lines]
    split
    · rename_i hi
      exact hi ▸ C.fits_use hnew fun e he => (hid' e he).2.2
    · rename_i hi
      refine (C.fits i).append fun e he h => hi ?_
      rw [(hid' e he).1, Option.some.injEq] at h
      exact h.symm
  · have hi : i ≠ id := fun hi => h (hi ▸ hid)
    change (j.set id _).lines i = _
    rw [set_lines, if_neg hi]
    exact C.unused i fun hk => h (hmono i hk)

theorem Contract.turn (C : Contract j) {l : Line} {es : List Event}
    (H : (j.lines id).Turn id l es) : Contract ((j.set id l).tell es) := by
  obtain ⟨hs, hc, hid⟩ := C.ready id H.tracked
  obtain ⟨x, hx⟩ := Option.isSome_iff_exists.mp H.tracked
  have hown : ∀ e ∈ es, e.streamId = some id ∧ e.isClosed = false := by
    intro e he
    obtain rfl | ⟨e', rfl, hid', _, _, hcl, _⟩ := H.events
    · cases he
    · obtain rfl := List.mem_singleton.mp he
      exact ⟨hid', hcl⟩
  refine ⟨?_, fun _ => ?_, fun h => absurd hs h, fun h => absurd hs h, fun _ e he => ?_,
    fun i h => ⟨hs, hc, ?_⟩, fun e he i h => ?_, fun i => ?_, fun i h => ?_⟩
  · obtain rfl | ⟨e, rfl, hid', hopen, hauth, _, hfin⟩ := H.events
    · simpa [tell, set] using C.order
    · refine pairwise_tell (j := j.set id l) C.order (C.before hx hid' hopen hauth fun h => ?_)
      exact fun hx' => hfin h (hx.trans (congrArg some hx'))
  · obtain ⟨k, v, rest, h⟩ := C.first hs
    exact ⟨k, v, rest ++ es, by simp [tell, set, h]⟩
  · rcases List.mem_append.mp he with he | he
    · exact C.isOpen hc e he
    · exact (hown e he).2
  · by_cases hi : i = id
    · exact hi ▸ hid
    · refine (C.ready i ?_).2.2
      simpa [tell, set_lines, hi] using h
  · rcases List.mem_append.mp he with he | he
    · exact C.known e he i h
    · rw [(hown e he).1, Option.some.injEq] at h
      exact h ▸ hid
  · change Line.Fits i (j.told ++ es) ((j.set id _).lines i)
    rw [set_lines]
    split
    · rename_i hi
      exact hi ▸ H.fits (C.fits id)
    · rename_i hi
      refine (C.fits i).append fun e he h => hi ?_
      rw [(hown e he).1, Option.some.injEq] at h
      exact h.symm
  · have hi : i ≠ id := fun hi => h (hi ▸ hid)
    change (j.set id _).lines i = _
    rw [set_lines, if_neg hi]
    exact C.unused i h

theorem Calm.contract (H : Calm A j j') (C : Contract j) : Contract j' := by
  cases H with
  | handshake hs hs' =>
    exact {
      order := C.order
      first := fun h => absurd h hs'
      early := fun _ => C.early hs
      waiting := fun _ => C.waiting hs
      isOpen := C.isOpen
      ready := fun id h => absurd (C.ready id h).1 hs
      known := C.known
      fits := C.fits
      unused := C.unused }
  | authenticated _ hc hs => exact C.authenticated hc hs _ _
  | use hs hc hnew hmono hid hes => exact C.use hs hc hnew hmono hid hes
  | turn H => exact C.turn H

/-- Resets of distinct tracked streams, and `Closed` after them, are in order. -/
theorem Contract.order_closing (C : Contract j) (hc : j.closed = none) {refusal : List Event}
    {ids : List StreamId} {reason : CloseReason}
    (hr : refusal = [] ∨ j.hs ≠ .done ∧ ∃ code message, refusal = [.rejected code message])
    (hnd : ids.Nodup) (hids : ∀ id, id ∈ ids ↔ (j.lines id).stream.isSome = true) :
    (j.told ++ (refusal ++ Event.closing ids reason)).Pairwise Event.Before := by
  have hlast : ∀ {a : Event}, a.isClosed = false → a.Before (.closed reason) := fun ha =>
    ⟨ha, rfl, fun i _ h => by cases h⟩
  have hresets : (Event.closing ids reason).Pairwise Event.Before := by
    refine List.pairwise_append.mpr ⟨?_, List.pairwise_singleton .., fun a ha b hb => ?_⟩
    · refine List.pairwise_map.mpr (hnd.imp fun {a b} hne => ⟨rfl, rfl, fun i ha hb => ?_⟩)
      cases ha
      cases hb
      exact absurd rfl hne
    · obtain rfl := List.mem_singleton.mp hb
      obtain ⟨id, _, rfl⟩ := List.mem_map.mp ha
      exact hlast rfl
  have hrest : (refusal ++ Event.closing ids reason).Pairwise Event.Before := by
    obtain rfl | ⟨_, code, message, rfl⟩ := hr
    · exact hresets
    · refine List.pairwise_cons.mpr ⟨fun b hb => ⟨rfl, ?_, fun i ha => by cases ha⟩, hresets⟩
      obtain ⟨id, _, rfl⟩ | rfl := Event.mem_closing.mp hb <;> rfl
  refine List.pairwise_append.mpr ⟨C.order, hrest, fun a ha b hb => ?_⟩
  rcases List.mem_append.mp hb with hb | hb
  · obtain rfl | ⟨hs, code, message, rfl⟩ := hr
    · cases hb
    · rw [C.waiting hs hc] at ha
      cases ha
  · obtain ⟨id, hid, rfl⟩ | rfl := Event.mem_closing.mp hb
    · obtain ⟨x, hx⟩ := Option.isSome_iff_exists.mp ((hids id).mp hid)
      exact C.before hx rfl rfl rfl (by rintro ⟨⟩) a ha
    · exact hlast (C.isOpen hc a ha)

theorem Closing.contract (H : Closing j j') (C : Contract j) : Contract j' := by
  obtain @⟨refusal, ids, reason, hc, hr, hnd, hids⟩ := H
  have hnew : ∀ e ∈ refusal ++ Event.closing ids reason, e.isAuthenticated = false ∧
      e.isFinished = false ∧ ∀ id, e.streamId = some id → id ∈ ids := by
    intro e he
    rcases List.mem_append.mp he with he | he
    · obtain rfl | ⟨_, code, message, rfl⟩ := hr
      · cases he
      · obtain rfl := List.mem_singleton.mp he
        exact ⟨rfl, rfl, by simp [Event.streamId]⟩
    · obtain ⟨id, hid, rfl⟩ | rfl := Event.mem_closing.mp he
      · exact ⟨rfl, rfl, by rintro i ⟨⟩; exact hid⟩
      · exact ⟨rfl, rfl, by simp [Event.streamId]⟩
  refine ⟨C.order_closing hc hr hnd hids, fun hs => ?_, fun hs e he => ?_, fun _ h => ?_,
    fun h => ?_, fun id h => ?_, fun e he id h => ?_, fun id => ?_, fun id h => ?_⟩
  · obtain ⟨k, v, rest, h⟩ := C.first hs
    exact ⟨k, v, _, by rw [h]; rfl⟩
  · rcases List.mem_append.mp he with he | he
    · exact C.early hs e he
    · refine ⟨Option.eq_none_iff_forall_ne_some.mpr fun id h => hs ?_, (hnew e he).1⟩
      exact (C.ready id ((hids id).mp ((hnew e he).2.2 id h))).1
  · cases h
  · cases h
  · cases h
  · rcases List.mem_append.mp he with he | he
    · exact C.known e he id h
    · exact (C.ready id ((hids id).mp ((hnew e he).2.2 id h))).2.2
  · refine ⟨fun _ _ => rfl, fun x hx => (by cases hx), fun o ms h => (by cases h), fun he => ?_⟩
    rcases List.mem_append.mp he with he | he
    · exact (C.fits id).consumed he
    · cases (hnew _ he).2.1
  · simp only [C.unused id h]
    rfl

/-! ## What one input does -/

/-- What one input does. -/
def Evolves (A : KeyId → Prop) (j j' : Journal) : Prop :=
  Relation.ReflTransGen (Calm A) j j' ∨ Closing j j'

theorem Evolves.refl : Evolves A j j := .inl .refl

theorem Evolves.of_eq (h : j' = j) : Evolves A j j' := h ▸ .refl

theorem tell_nil : j.tell [] = j := by simp [tell]

/-- A turn nothing is told of. -/
theorem Calm.quiet {l : Line} (H : (j.lines id).Turn id l []) : Calm A j (j.set id l) :=
  tell_nil (j := j.set id l) ▸ .turn H

theorem Calm.evolves (H : Calm A j j') : Evolves A j j' := .inl (.single H)

theorem Calm.mono {B : KeyId → Prop} (h : ∀ k, A k → B k) (H : Calm A j j') : Calm B j j' := by
  cases H with
  | handshake hs hs' => exact .handshake hs hs'
  | authenticated hA hc hs => exact .authenticated (h _ hA) hc hs
  | use hs hc hnew hmono hid hes => exact .use hs hc hnew hmono hid hes
  | turn H => exact .turn H

theorem Evolves.mono {B : KeyId → Prop} (h : ∀ k, A k → B k) (H : Evolves A j j') :
    Evolves B j j' := by
  rcases H with H | H
  · have hle : Calm A ≤ Calm B := fun _ _ H => Calm.mono h H
    exact .inl (Relation.ReflTransGen.mono hle _ _ H)
  · exact .inr H

theorem Evolves.contract (H : Evolves A j j') (C : Contract j) : Contract j' := by
  rcases H with H | H
  · induction H with
    | refl => exact C
    | tail _ h ih => exact h.contract ih
  · exact H.contract C

/-- The messages waiting on a stream. -/
def waiting (j : Journal) (id : StreamId) : List Bytes := ((j.lines id).stream.map Prod.snd).getD []

/-- `es` are the events told on the way from `j` to `j'`: `Readable` whenever messages begin to
wait, an identity of `A` if any, and on a close one `Reset` for each tracked stream. -/
structure Tells (A : KeyId → Prop) (j j' : Journal) (es : List Event) : Prop where
  told : j'.told = j.told ++ es
  readable : ∀ id, j.waiting id = [] → j'.waiting id ≠ [] → .readable id ∈ es
  identity : ∀ k v, .authenticated k v ∈ es → A k
  resets : j.closed = none → j'.closed ≠ none → ∀ id,
    es.filter (fun e => e.isReset && e.streamId == some id) =
      if (j.lines id).stream.isSome then [.reset id rstCodeConnectionClosed] else []

theorem waiting_of_lines (h : (j'.lines id).stream = (j.lines id).stream) :
    j'.waiting id = j.waiting id := by
  simp [waiting, h]

/-- Messages begin to wait when one arrives, and the application is told. -/
theorem readable_of_turn {l l' : Line} {es : List Event}
    (H : l.Turn id l' es) (h : (l.stream.map Prod.snd).getD [] = [])
    (h' : (l'.stream.map Prod.snd).getD [] ≠ []) : .readable id ∈ es := by
  cases H with
  | arrived =>
    have h : _ = [] := h
    exact (if_pos h).symm ▸ List.mem_singleton_self _
  | writable | fin | ended | took | tookLast | drop | reset => simp_all

theorem Calm.tells (H : Calm A j j') : ∃ es, Tells A j j' es ∧ j'.closed = j.closed := by
  cases H with
  | handshake hs hs' =>
    exact ⟨[], ⟨by simp, fun id h h' => absurd h h', by simp, fun h h' => absurd h h'⟩, rfl⟩
  | @authenticated k v hA hc hs =>
    refine ⟨[.authenticated k v], ⟨rfl, fun id h h' => absurd h h', ?_, fun h h' => absurd h h'⟩, rfl⟩
    rintro _ _ h
    cases List.mem_singleton.mp h
    exact hA
  | @use id Known es hs hc hnew hmono hid hes =>
    refine ⟨es, ⟨rfl, fun i h h' => ?_, fun k v he => ?_, fun h h' => absurd h h'⟩, rfl⟩
    · refine absurd ?_ h'
      change (((j.set id _).lines i).stream.map Prod.snd).getD [] = []
      rw [set_lines]
      split
      · rfl
      · exact h
    · obtain rfl | ⟨cls, rfl⟩ := hes <;> simp at he
  | @turn id l es H =>
    refine ⟨es, ⟨rfl, fun i h h' => ?_, fun k v he => ?_, fun h h' => absurd h h'⟩, rfl⟩
    · change (((j.set id l).lines i).stream.map Prod.snd).getD [] ≠ [] at h'
      rw [set_lines] at h'
      split at h'
      · rename_i hi
        subst hi
        exact readable_of_turn H h h'
      · exact absurd h h'
    · obtain rfl | ⟨e, rfl, hid, _⟩ := H.events
      · cases he
      · cases List.mem_singleton.mp he
        cases hid

theorem Closing.tells (H : Closing j j') : ∃ es, Tells A j j' es := by
  obtain @⟨refusal, ids, reason, hc, hr, hnd, hids⟩ := H
  have hrefusal : ∀ e ∈ refusal, e.isReset = false ∧ e.isAuthenticated = false := by
    intro e he
    obtain rfl | ⟨_, code, message, rfl⟩ := hr
    · cases he
    · obtain rfl := List.mem_singleton.mp he
      exact ⟨rfl, rfl⟩
  refine ⟨_, rfl, fun id _ h' => absurd rfl h', fun k v he => ?_, fun _ _ id => ?_⟩
  · rcases List.mem_append.mp he with he | he
    · cases (hrefusal _ he).2
    · obtain ⟨_, _, h⟩ | h := Event.mem_closing.mp he <;> cases h
  · have hnil : refusal.filter (fun e => e.isReset && e.streamId == some id) = [] :=
      List.filter_eq_nil_iff.mpr fun e he => by simp [(hrefusal e he).1]
    have hlast : [Event.closed reason].filter (fun e => e.isReset && e.streamId == some id) = [] :=
      rfl
    rw [Event.closing, List.filter_append, List.filter_append, hnil, hlast, List.append_nil,
      List.nil_append, List.filter_map]
    have hcount : ids.filter (· == id) = if id ∈ ids then [id] else [] := by
      split
      · rename_i hid
        rw [List.filter_beq, List.count_eq_one_of_mem hnd hid]
        rfl
      · rename_i hid
        exact List.filter_eq_nil_iff.mpr fun i hi h => hid ((eq_of_beq h) ▸ hi)
    have hfun : ((fun e : Event => e.isReset && e.streamId == some id) ∘
        (Event.reset · rstCodeConnectionClosed)) = (· == id) := by
      funext i
      simp [Event.isReset, Event.streamId]
    rw [hfun, hcount]
    by_cases hid : id ∈ ids
    · simp [hid, (hids id).mp hid]
    · rw [if_neg hid, if_neg fun h => hid ((hids id).mpr h)]
      rfl

theorem Evolves.tells (H : Evolves A j j') : ∃ es, Tells A j j' es := by
  rcases H with H | H
  · suffices h : ∃ es, Tells A j j' es ∧ j'.closed = j.closed by
      obtain ⟨es, h, _⟩ := h
      exact ⟨es, h⟩
    induction H with
    | refl =>
      exact ⟨[], ⟨by simp, fun id h h' => absurd h h', by simp, fun h h' => absurd h h'⟩, rfl⟩
    | @tail j₁ j₂ _ h ih =>
      obtain ⟨es, T, hc⟩ := ih
      obtain ⟨es', T', hc'⟩ := h.tells
      refine ⟨es ++ es', ⟨by rw [T'.told, T.told, List.append_assoc], fun id h h' => ?_,
        fun k v he => ?_, fun h h' => absurd (hc'.trans (hc.trans h)) h'⟩, hc'.trans hc⟩
      · by_cases h₁ : j₁.waiting id = []
        · exact List.mem_append_right _ (T'.readable id h₁ h')
        · exact List.mem_append_left _ (T.readable id h h₁)
      · rcases List.mem_append.mp he with he | he
        · exact T.identity k v he
        · exact T'.identity k v he
  · exact H.tells

end Journal

end TunnelWeaver.Mux
