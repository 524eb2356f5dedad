import TunnelWeaver.Mux.Delivery

/-! One direction of one stream, from the sender's bookkeeping through the frames on their way to
the receiver's view. `Channel` is what holds of it at every moment; the lemmas below say that it
survives each thing either end can do to the stream. -/

namespace TunnelWeaver.Mux

open Automaton (run_append_eq_some run_cons_eq_some)

def SendHalf.fresh (window : Nat) (openSent : Bool) : SendHalf := ⟨true, openSent, [], 0, window⟩

def finFrame (i : StreamId) : Frame := ⟨i, .fin, []⟩

/-- The frames a sending half has committed to but not queued: its outbox, and the FIN that follows
the last DATA frame of a half-closed stream. -/
def SendHalf.tail (i : StreamId) (s : SendHalf) : List Frame :=
  dataFrames i s.outbox ++ if s.localOpen = false ∧ s.outbox ≠ [] then [finFrame i] else []

def tailOf (i : StreamId) : Option SendHalf → List Frame
  | none => []
  | some s => s.tail i

theorem SendHalf.tail_of_open {s : SendHalf} {i : StreamId} (h : s.localOpen = true) :
    s.tail i = dataFrames i s.outbox := by simp [tail, h]

theorem SendHalf.tail_ne_open {s : SendHalf} {i : StreamId} {f : Frame} (h : f ∈ s.tail i) :
    f.frameType ≠ .open := by
  simp only [tail, dataFrames, List.mem_append, List.mem_map] at h
  rcases h with ⟨p, _, rfl⟩ | h
  · rintro ⟨⟩
  · split at h <;> simp at h
    subst h; rintro ⟨⟩

/-- One direction of stream `i`: `v` is the receiver's view, `queued` the frames of the stream on
the wire or in the sender's control queue, `s` the sender's half if it tracks the stream, `known`
whether it knows the id, `granted` the credit on its way back. -/
structure Channel [ThirdParty] (P : Params) (odd : Bool) (i : StreamId) (v : View)
    (queued : List Frame) (s : Option SendHalf) (known : Prop) (granted : Nat)
    (sent taken : List Bytes) : Prop where
  delivery : Delivery P odd v (queued ++ tailOf i s) sent taken
  settled {s' : SendHalf} : s = some s' → v ≠ .gone →
    ∃ h, View.run P odd v (queued ++ tailOf i s) = some (.live h) ∧
      Settled s' granted sent taken h
  unopened : ¬known → queued = [] ∧ s = none ∧ sent = [] ∧ taken = [] ∧
    ∀ h, v = .live h → h = .fresh P.initialWindow.toNat

namespace Channel

variable [ThirdParty] {P : Params} {odd : Bool} {i : StreamId} {v : View} {queued : List Frame}
  {s : SendHalf} {so : Option SendHalf} {known : Prop} {granted : Nat} {sent taken : List Bytes}

/-! ## The sender's steps -/

/-- Nothing was ever sent on an id neither end knows. -/
theorem init (hv : ∀ h, v ≠ .live h) : Channel P odd i v [] none known granted [] [] where
  delivery := .nil fun h hl => absurd hl (hv h)
  settled := (by rintro _ ⟨⟩)
  unopened _ := ⟨rfl, rfl, rfl, rfl, fun h hl => absurd hl (hv h)⟩

theorem drop (C : Channel P odd i v queued so known granted sent taken) :
    Channel P odd i v queued none known granted sent taken where
  delivery := C.delivery.of_isPrefix (by simp [tailOf])
  settled := (by rintro _ ⟨⟩)
  unopened h :=
    let ⟨h1, _, h2⟩ := C.unopened h
    ⟨h1, rfl, h2⟩

theorem shrink {queued' : List Frame} (hq : queued' <+: queued)
    (C : Channel P odd i v queued none known granted sent taken) :
    Channel P odd i v queued' none known granted sent taken where
  delivery := C.delivery.of_isPrefix (by simpa [tailOf] using hq)
  settled := (by rintro _ ⟨⟩)
  unopened h := by
    obtain ⟨rfl, h⟩ := C.unopened h
    exact ⟨List.prefix_nil.mp hq, h⟩

/-- A run that reaches a live view has left the unknown state before the frames of the tail. -/
theorem queued_ne_unknown (C : Channel P odd i v queued (some s) known granted sent taken)
    {w : View} (H : View.run P odd v queued = some w) : w ≠ .unknown := by
  rintro rfl
  have hv : v ≠ .gone := by
    rintro rfl
    cases View.run_gone H
  obtain ⟨h, hrun, _⟩ := C.settled rfl hv
  rw [View.run_append H, tailOf] at hrun
  rw [View.nil_of_run_unknown (fun f hf => SendHalf.tail_ne_open hf) hrun] at hrun
  cases hrun

theorem known_of_tracked (C : Channel P odd i v queued (some s) known granted sent taken) :
    known := by
  by_contra hk
  cases (C.unopened hk).2.1

theorem reset {code : UInt32} (C : Channel P odd i v queued (some s) known granted sent taken) :
    Channel P odd i v (queued ++ [⟨i, .rst, ThirdParty.rst.encode ⟨code⟩⟩]) none known granted sent
      taken where
  delivery := by
    rw [tailOf, List.append_nil]
    exact (C.delivery.of_isPrefix (List.prefix_append ..)).concat_rst fun _ => C.queued_ne_unknown
  settled := (by rintro _ ⟨⟩)
  unopened h := absurd C.known_of_tracked h

/-- The sender's half and queue changed so that `fs` was appended to the frames to come. -/
theorem extend {queued' : List Frame} {s' : SendHalf} {sent' : List Bytes}
    (C : Channel P odd i v queued (some s) known granted sent taken) (fs : List Frame)
    (heq : queued' ++ s'.tail i = queued ++ s.tail i ++ fs)
    (hgone : View.run P odd .gone fs = some .gone)
    (hlive : ∀ h, View.run P odd v (queued ++ s.tail i) = some (.live h) →
      Settled s granted sent taken h →
      Delivery P odd v (queued ++ s.tail i ++ fs) sent' taken ∧
      ∃ h', View.run P odd v (queued ++ s.tail i ++ fs) = some (.live h') ∧
        Settled s' granted sent' taken h') :
    Channel P odd i v queued' (some s') known granted sent' taken := by
  by_cases hv : v = .gone
  · subst hv
    refine ⟨?_, fun _ hv => absurd rfl hv, fun h => absurd C.known_of_tracked h⟩
    obtain ⟨w, hw⟩ := C.delivery.legal
    obtain rfl := View.run_gone hw
    rw [tailOf, heq]
    exact .gone (run_append_eq_some.mpr ⟨_, hw, hgone⟩)
  · obtain ⟨h, hrun, hs⟩ := C.settled rfl hv
    obtain ⟨hd, h', hrun', hs'⟩ := hlive h hrun hs
    refine ⟨by rw [tailOf, heq]; exact hd, fun h _ => ?_, fun h => absurd C.known_of_tracked h⟩
    cases h
    exact ⟨h', by rw [tailOf, heq]; exact hrun', hs'⟩

theorem finish (C : Channel P odd i v queued (some s) known granted sent taken)
    (ho : s.localOpen = true) :
    Channel P odd i v (queued ++ if s.outbox = [] then [finFrame i] else [])
      (some { s with localOpen := false }) known granted sent taken := by
  refine C.extend [finFrame i] ?_ rfl fun h hrun hs => ?_
  · rw [SendHalf.tail_of_open ho]
    by_cases hb : s.outbox = [] <;> simp [SendHalf.tail, hb, dataFrames]
  · obtain ⟨hd, hrun'⟩ := C.delivery.concat_fin (i := i) hrun hs ho
    exact ⟨hd, _, hrun', rfl, hs.partialMsg, hs.partialWire, hs.credit, hs.messages⟩

theorem send {ps : List Bytes} {m : Bytes}
    (C : Channel P odd i v queued (some s) known granted sent taken)
    (ho : s.localOpen = true) (hs : Splits P i ps m) (hn : wireBytes ps + s.outboxBytes ≤ s.credit)
    (hm : m.length ≤ P.maxMessage.toNat) :
    Channel P odd i v queued
      (some { s with outbox := s.outbox ++ ps, outboxBytes := s.outboxBytes + wireBytes ps }) known
      granted (sent ++ [m]) taken := by
  refine C.extend (dataFrames i ps) ?_ hs.run_gone fun h hrun hset => ?_
  · rw [SendHalf.tail_of_open ho, SendHalf.tail_of_open (by exact ho)]
    simp [dataFrames]
  · exact C.delivery.concat_message hrun hset hs ho hn hm

/-- The first payload of the outbox goes to the wire, and FIN to the control queue after the last
one of a half-closed stream. -/
theorem emit {p : Bytes} {rest : List Bytes}
    (C : Channel P odd i v queued (some s) known granted sent taken) (hp : s.outbox = p :: rest)
    (hle : asU32 p.length ≤ s.outboxBytes) (hcr : s.outboxBytes ≤ s.credit) :
    Channel P odd i v (queued ++ ⟨i, .data, p⟩ ::
        if rest = [] ∧ s.localOpen = false then [finFrame i] else [])
      (some { s with
        outbox := rest
        outboxBytes := s.outboxBytes - asU32 p.length
        credit := s.credit - asU32 p.length }) known granted sent taken := by
  refine C.extend [] ?_ rfl fun h hrun hs => ?_
  · by_cases hb : rest = [] <;> by_cases ho : s.localOpen = false <;>
      simp [SendHalf.tail, hp, hb, ho, dataFrames]
  · rw [List.append_nil]
    refine ⟨C.delivery, h, hrun, hs.remoteOpen, hs.partialMsg, hs.partialWire, ?_, hs.messages⟩
    have := hs.credit
    dsimp only
    omega

/-- The sender opens the stream. -/
theorem «open» {cls : Class} (C : Channel P odd i .unknown queued so known 0 sent taken)
    (hk : ¬known) (hcls : cls ≠ .control) (hi : (i % 2 == 1) = odd) :
    Channel P odd i .unknown [⟨i, .open, ThirdParty.cls.encode cls⟩]
      (some (.fresh P.initialWindow.toNat false)) True 0 sent taken := by
  obtain ⟨_, _, rfl, rfl, _⟩ := C.unopened hk
  have hrun : View.run P odd .unknown [⟨i, .open, ThirdParty.cls.encode cls⟩] =
      some (.live (.fresh P.initialWindow.toNat)) := by
    rw [View.run, Automaton.run_singleton]
    simp [View.step, hi, Codec.decode_encode, hcls]
  refine ⟨⟨⟨_, hrun⟩, fun {pre h} hpre H => ?_⟩, fun h _ => ?_, fun h => absurd trivial h⟩
  · have hpre : pre <+: [] ++ [⟨i, .open, ThirdParty.cls.encode cls⟩] := hpre
    rcases List.prefix_concat_iff.mp hpre with rfl | hpre
    · rw [List.nil_append, hrun] at H
      cases H
      exact ⟨List.prefix_rfl, fun _ => rfl⟩
    · cases List.prefix_nil.mp hpre
      cases H
  · cases h
    exact ⟨_, hrun, rfl, rfl, rfl, rfl, rfl⟩

/-- The sender learns of a stream the receiver opened. -/
theorem opened (C : Channel P odd i v queued so known 0 sent taken) (hk : ¬known)
    (hv : v ≠ .unknown) :
    Channel P odd i v queued (some (.fresh P.initialWindow.toNat true)) True 0 sent taken := by
  obtain ⟨rfl, _, rfl, rfl, hfresh⟩ := C.unopened hk
  refine ⟨.nil fun h hh => ?_, fun h hg => ?_, fun h => absurd trivial h⟩
  · rw [hfresh h hh]
    exact ⟨List.prefix_rfl, fun _ => rfl⟩
  · cases h
    cases v with
    | unknown => exact absurd rfl hv
    | gone => exact absurd rfl hg
    | live h => exact ⟨h, rfl, by rw [hfresh h rfl]; exact ⟨rfl, rfl, rfl, rfl, rfl⟩⟩

/-- While the receiver tracks the stream, the sender's credit and what is on its way back to it
fit in the window. -/
theorem credit_le (C : Channel P odd i v queued (some s) known granted sent taken)
    (hv : v ≠ .gone) (hb : s.outboxBytes = wireBytes s.outbox)
    (hw : ∀ h, v = .live h → h.recv.remaining ≤ P.initialWindow.toNat) :
    s.credit + granted ≤ P.initialWindow.toNat := by
  obtain ⟨h, hrun, hs⟩ := C.settled rfl hv
  have hcr := hs.credit
  have htail : s.outboxBytes ≤ dataBytes (s.tail i) := by
    simp [SendHalf.tail, hb]
  -- the run starts from a live view, or from the fresh one after OPEN
  have key : ∀ {h₀ fs}, h₀.recv.remaining ≤ P.initialWindow.toNat →
      View.run P odd (.live h₀) (fs ++ s.tail i) = some (.live h) →
      s.credit + granted ≤ P.initialWindow.toNat := by
    intro h₀ fs h₀le H
    have := (View.extends_of_run H).remaining
    rw [dataBytes_append] at this
    omega
  cases v with
  | gone => exact absurd rfl hv
  | live h₀ => exact key (hw h₀ rfl) hrun
  | unknown =>
    cases queued with
    | nil =>
      have := View.nil_of_run_unknown (fun f hf => SendHalf.tail_ne_open hf) hrun
      rw [List.nil_append, tailOf, this] at hrun
      cases hrun
    | cons f fs =>
      obtain ⟨w, hw', hrun⟩ := run_cons_eq_some.mp hrun
      rw [(View.step_unknown hw').2] at hrun
      exact key (by simp [RecvHalf.fresh, RecvWindow.new]) hrun

/-- Credit reaches the sender. -/
theorem grant {g credit : Nat}
    (C : Channel P odd i v queued (some s) known (g + granted) sent taken)
    (hc : v ≠ .gone → credit = s.credit + g) :
    Channel P odd i v queued (some { s with credit }) known granted sent taken where
  delivery := C.delivery
  settled h hv := by
    cases h
    obtain ⟨h, hrun, hs⟩ := C.settled rfl hv
    refine ⟨h, hrun, hs.remoteOpen, hs.partialMsg, hs.partialWire, ?_, hs.messages⟩
    have := hs.credit
    have := hc hv
    dsimp only
    omega
  unopened h := absurd C.known_of_tracked h

/-- The sender's half moves in a way the receiver never sees. -/
theorem congr {s' : SendHalf} (C : Channel P odd i v queued (some s) known granted sent taken)
    (ho : s'.localOpen = s.localOpen) (hb : s'.outbox = s.outbox)
    (hn : s'.outboxBytes = s.outboxBytes) (hc : s'.credit = s.credit) :
    Channel P odd i v queued (some s') known granted sent taken := by
  have ht : s'.tail i = s.tail i := by simp [SendHalf.tail, ho, hb]
  refine C.extend [] (by rw [ht, List.append_nil]) rfl fun h hrun hs => ?_
  rw [List.append_nil]
  exact ⟨C.delivery, h, hrun, hs.remoteOpen.trans ho.symm, hs.partialMsg, hs.partialWire,
    by rw [hn, hc]; exact hs.credit, hs.messages⟩

theorem learn {known' : Prop} (hk : known → known')
    (C : Channel P odd i v queued so known granted sent taken) :
    Channel P odd i v queued so known' granted sent taken :=
  ⟨C.delivery, C.settled, fun h => C.unopened fun h' => h (hk h')⟩

/-- On a stream the sender does not track the credit on its way back is of no account. -/
theorem regrant {granted' : Nat} (C : Channel P odd i v queued none known granted sent taken) :
    Channel P odd i v queued none known granted' sent taken :=
  ⟨C.delivery, (by rintro _ ⟨⟩), C.unopened⟩

/-! ## The receiver's steps -/

/-- The receiver opens the stream itself. -/
theorem start {granted' : Nat} (C : Channel P odd i .unknown queued so known granted sent taken)
    (hk : ¬known) :
    Channel P odd i (.live (.fresh P.initialWindow.toNat)) queued so known granted' sent taken := by
  obtain ⟨rfl, rfl, rfl, rfl, _⟩ := C.unopened hk
  refine ⟨.nil fun h hh => ?_, (by rintro _ ⟨⟩), fun _ => ⟨rfl, rfl, rfl, rfl, fun h hh => ?_⟩⟩
  · cases hh
    exact ⟨List.prefix_rfl, fun _ => rfl⟩
  · cases hh
    rfl

theorem forget (C : Channel P odd i v queued so known granted sent taken) (hv : v ≠ .unknown) :
    Channel P odd i .gone queued so known granted sent taken where
  delivery := C.delivery.forget hv
  settled _ h := absurd rfl h
  unopened h :=
    let ⟨h1, h2, h3, h4, _⟩ := C.unopened h
    ⟨h1, h2, h3, h4, (by rintro _ ⟨⟩)⟩

/-- The receiver reads a frame. -/
theorem step {f : Frame} (C : Channel P odd i v (f :: queued) so known granted sent taken) :
    known ∧ ∃ v', View.step P odd v f = some v' ∧
      Channel P odd i v' queued so known granted sent taken := by
  have hk : known := by
    by_contra hk
    cases (C.unopened hk).1
  obtain ⟨v', hv', hd⟩ := C.delivery.step
  refine ⟨hk, v', hv', hd, fun {s'} hs hg' => ?_, fun h => absurd hk h⟩
  have hne : v ≠ .gone := by
    rintro rfl
    exact hg' (View.step_gone hv')
  obtain ⟨h, hrun, hset⟩ := C.settled hs hne
  obtain ⟨w, hw, hrun⟩ := run_cons_eq_some.mp hrun
  rw [hv'] at hw
  cases hw
  exact ⟨h, hrun, hset⟩

/-- The receiver saw a later stream open before this one, which therefore never will. -/
theorem skip (C : Channel P odd i .unknown queued so known granted sent taken)
    (hq : ∀ f ∈ queued, f.frameType ≠ .open) :
    Channel P odd i .gone queued so known granted sent taken := by
  obtain ⟨w, hw⟩ := C.delivery.legal
  have hnil : queued ++ tailOf i so = [] := by
    refine View.nil_of_run_unknown (fun f hf => ?_) hw
    rcases List.mem_append.mp hf with hf | hf
    · exact hq f hf
    · cases so with
      | none => simp [tailOf] at hf
      | some s => exact SendHalf.tail_ne_open hf
  exact ⟨.gone (show View.run P odd .gone _ = some .gone by rw [hnil]; rfl), fun _ h => absurd rfl h, fun h =>
    let ⟨h1, h2, h3, h4, _⟩ := C.unopened h
    ⟨h1, h2, h3, h4, (by rintro _ ⟨⟩)⟩⟩

/-- The receiver's application takes a message, returning `cr` bytes of credit. -/
theorem take {h : RecvHalf} {m : Bytes} {w : Nat} {rest : List (Bytes × Nat)}
    (C : Channel P odd i (.live h) queued so known granted sent taken) (c cr : Nat)
    (hi : h.inbox = (m, w) :: rest) :
    known ∧ Channel P odd i (.live (h.pop c cr)) queued so known (granted + cr) sent
      (taken ++ [m]) := by
  have hk : known := by
    by_contra hk
    have := (C.unopened hk).2.2.2.2 h rfl
    rw [this] at hi
    cases hi
  refine ⟨hk, C.delivery.pop hi, fun {s'} hs _ => ?_, fun h => absurd hk h⟩
  obtain ⟨h', hrun, hset⟩ := C.settled hs (by rintro ⟨⟩)
  obtain ⟨hrun', hset'⟩ := Delivery.settled_pop c cr hi hrun hset
  exact ⟨_, hrun', hset'⟩

/-- What the receiver has read of the stream is an initial part of what was sent. -/
theorem taken_isPrefix {h : RecvHalf}
    (C : Channel P odd i (.live h) queued so known granted sent taken) :
    taken ++ h.messages <+: sent :=
  (C.delivery.delivers (List.nil_prefix) rfl).1

/-- Once FIN was read everything sent has been delivered, and the sender sends no more. -/
theorem finished {h : RecvHalf}
    (C : Channel P odd i (.live h) queued so known granted sent taken)
    (ho : h.remoteOpen = false) :
    taken ++ h.messages = sent ∧ known ∧ ∀ s, so = some s → s.localOpen = false := by
  refine ⟨(C.delivery.delivers (List.nil_prefix) rfl).2 ho, ?_, fun s hs => ?_⟩
  · by_contra hk
    have := (C.unopened hk).2.2.2.2 h rfl
    rw [this] at ho
    cases ho
  · obtain ⟨h', hrun, hset⟩ := C.settled hs (by rintro ⟨⟩)
    rw [← hset.remoteOpen]
    exact (View.extends_of_run hrun).closes ho

end Channel

end TunnelWeaver.Mux
