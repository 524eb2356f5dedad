import TunnelWeaver.Mux.View

/-! Runs of a receiver's view, the reassembly of a fragmented message, and `Delivery`: the frames still
to come on one stream are legal for the receiver and deliver what the sender accepted. -/

namespace TunnelWeaver.Mux

open Automaton (run_append_eq_some run_cons_eq_some)

/-- Payload bytes of a DATA frame, as flow control counts them. -/
def Frame.dataLen (f : Frame) : Nat :=
  if f.frameType = .data then asU32 f.payload.length else 0

def dataBytes (fs : List Frame) : Nat := (fs.map Frame.dataLen).sum

@[simp] theorem dataBytes_nil : dataBytes [] = 0 := rfl

@[simp] theorem dataBytes_cons (f : Frame) (fs : List Frame) :
    dataBytes (f :: fs) = f.dataLen + dataBytes fs := by simp [dataBytes]

@[simp] theorem dataBytes_append (fs gs : List Frame) :
    dataBytes (fs ++ gs) = dataBytes fs + dataBytes gs := by simp [dataBytes]

namespace View

variable [ThirdParty] {P : Params} {odd : Bool} {v v' w : View} {h h' : RecvHalf} {f : Frame}
  {fs gs : List Frame}

/-! ## One step -/

theorem step_live (H : step P odd (.live h) f = some v) :
    v = .gone ∧ f.frameType = .rst ∨ ∃ h', v = .live h' ∧ RecvHalf.Extends f.dataLen h h' := by
  unfold step at H
  cases ht : f.frameType <;> simp only [ht, reduceCtorEq] at H
  case data =>
    split at H
    · cases H
    · obtain ⟨h', hd, rfl⟩ := Option.map_eq_some_iff.mp H
      refine .inr ⟨h', rfl, ?_⟩
      simpa only [Frame.dataLen, ht, if_true] using RecvHalf.Extends.of_onData hd
  case fin =>
    obtain ⟨h', hd, rfl⟩ := Option.map_eq_some_iff.mp H
    refine .inr ⟨h', rfl, ?_⟩
    simpa only [Frame.dataLen, ht, reduceCtorEq, if_false] using RecvHalf.Extends.of_onFin hd
  case rst =>
    obtain ⟨_, _, rfl⟩ := Option.map_eq_some_iff.mp H
    exact .inl ⟨rfl, rfl⟩

theorem step_gone_of_live (H : step P odd (.live h) f = some v) :
    step P odd .gone f = some .gone := by
  unfold step at H ⊢
  cases ht : f.frameType <;> simp only [ht, reduceCtorEq] at H ⊢
  case data => split at H <;> simp_all
  case rst => simp_all

theorem step_gone (H : step P odd .gone f = some v) : v = .gone := by
  unfold step at H
  cases ht : f.frameType <;> simp only [ht, reduceCtorEq] at H
  case data => split at H <;> simp_all
  case fin => simp_all
  case rst =>
    obtain ⟨_, _, rfl⟩ := Option.map_eq_some_iff.mp H
    rfl

theorem step_unknown (H : step P odd .unknown f = some v) :
    f.frameType = .open ∧ v = .live (.fresh P.initialWindow.toNat) := by
  unfold step at H
  cases ht : f.frameType <;> simp only [ht, reduceCtorEq] at H
  case «open» => split at H <;> simp_all
  case data => split at H <;> simp_all

theorem step_ne_unknown (H : step P odd v f = some v') : v' ≠ .unknown := by
  cases v with
  | unknown => rw [(step_unknown H).2]; rintro ⟨⟩
  | gone => rw [step_gone H]; rintro ⟨⟩
  | live h => rcases step_live H with ⟨rfl, _⟩ | ⟨h', rfl, _⟩ <;> rintro ⟨⟩

/-! ## Runs -/

theorem run_append (H : run P odd v fs = some v') : run P odd v (fs ++ gs) = run P odd v' gs := by
  rw [run, Automaton.run_append, show Automaton.run _ _ _ = _ from H]; rfl

theorem run_gone (H : run P odd .gone fs = some v) : v = .gone :=
  Automaton.run_invariant (I := (· = .gone)) (p := fun _ => True)
    (fun hI _ h => by subst hI; exact step_gone h) (by simp) rfl H

/-- A receiver that stopped tracking the stream accepts what it would have accepted before. -/
theorem run_gone_of_known (hv : v ≠ .unknown) (H : run P odd v fs = some v') :
    run P odd .gone fs = some .gone := by
  obtain ⟨t, ht, rfl, _⟩ := Automaton.run_simulation (p := fun _ => True)
    (R := fun v t => t = .gone ∧ v ≠ View.unknown) (f := step P odd)
    (fun {v t a v'} hR _ h => by
      obtain ⟨rfl, hv⟩ := hR
      refine ⟨.gone, ?_, rfl, step_ne_unknown h⟩
      cases v with
      | unknown => exact absurd rfl hv
      | gone => rw [h, step_gone h]
      | live => exact step_gone_of_live h) (by simp) ⟨rfl, hv⟩ H
  exact ht

theorem run_live (H : run P odd (.live h) fs = some v) :
    v = .gone ∨ ∃ h', v = .live h' ∧ RecvHalf.Extends (dataBytes fs) h h' := by
  induction fs generalizing h with
  | nil => cases H; exact .inr ⟨h, rfl, .refl h⟩
  | cons f fs ih =>
    obtain ⟨w, hw, H⟩ := run_cons_eq_some.mp H
    rcases step_live hw with ⟨rfl, _⟩ | ⟨h₁, rfl, e₁⟩
    · exact .inl (run_gone H)
    · rcases ih H with rfl | ⟨h₂, rfl, e₂⟩
      · exact .inl rfl
      · exact .inr ⟨h₂, rfl, by simpa using e₁.trans e₂⟩

theorem extends_of_run (H : run P odd (.live h) fs = some (.live h')) :
    RecvHalf.Extends (dataBytes fs) h h' := by
  rcases run_live H with h | ⟨_, h, e⟩ <;> cases h
  exact e

theorem run_ne_unknown (hv : v ≠ .unknown) (H : run P odd v fs = some v') : v' ≠ .unknown :=
  Automaton.run_invariant (I := (· ≠ View.unknown)) (p := fun _ => True)
    (fun _ _ h => step_ne_unknown h) (by simp) hv H

/-- On a stream not yet opened nothing but OPEN can come first. -/
theorem nil_of_run_unknown (hfs : ∀ f ∈ fs, f.frameType ≠ .open)
    (H : run P odd .unknown fs = some v) : fs = [] := by
  cases fs with
  | nil => rfl
  | cons f fs =>
    obtain ⟨w, hw, _⟩ := run_cons_eq_some.mp H
    exact absurd (step_unknown hw).1 (hfs f (by simp))

/-! ## Taking a message -/

/-- The view after the application took the first message. -/
def pop (v : View) (consumed credit : Nat) : View :=
  match v with
  | .live h => .live (h.pop consumed credit)
  | v => v

theorem step_pop {c cr : Nat} (hi : h.inbox ≠ []) (H : step P odd (.live h) f = some v) :
    step P odd (.live (h.pop c cr)) f = some (v.pop c cr) := by
  unfold step at H ⊢
  cases ht : f.frameType <;> simp only [ht, reduceCtorEq] at H ⊢
  case data =>
    split at H
    · cases H
    · obtain ⟨h', hd, rfl⟩ := Option.map_eq_some_iff.mp H
      obtain ⟨ho, hn, hm, rfl⟩ := RecvHalf.onData_eq_some.mp hd
      rename_i data more _
      refine Option.map_eq_some_iff.mpr ⟨_, RecvHalf.onData_eq_some.mpr
        ⟨ho, Nat.le_trans hn (Nat.le_add_right ..), hm, rfl⟩, ?_⟩
      have hr : h.recv.remaining + cr - asU32 f.payload.length =
        h.recv.remaining - asU32 f.payload.length + cr := by omega
      obtain ⟨m, rest, hi⟩ := List.exists_cons_of_ne_nil hi
      cases more <;> simp [RecvHalf.pop, RecvHalf.deliver, pop, hr, hi]
  case fin =>
    obtain ⟨h', hd, rfl⟩ := Option.map_eq_some_iff.mp H
    obtain ⟨ho, hp, rfl⟩ := RecvHalf.onFin_eq_some.mp hd
    exact Option.map_eq_some_iff.mpr ⟨_, RecvHalf.onFin_eq_some.mpr ⟨ho, hp, rfl⟩, rfl⟩
  case rst =>
    obtain ⟨_, hd, rfl⟩ := Option.map_eq_some_iff.mp H
    exact H

/-- Taking the first message commutes with the frames still to come. -/
theorem run_pop {c cr : Nat} (hi : h.inbox ≠ []) (H : run P odd (.live h) fs = some v) :
    run P odd (.live (h.pop c cr)) fs = some (v.pop c cr) := by
  obtain ⟨t, ht, rfl, _⟩ := Automaton.run_simulation (p := fun _ => True)
    (R := fun v t => t = v.pop c cr ∧ (v = .gone ∨ ∃ h, v = View.live h ∧ h.inbox ≠ []))
    (f := step P odd)
    (fun {v t a v'} hR _ hs => by
      obtain ⟨rfl, rfl | ⟨h, rfl, hi⟩⟩ := hR
      · obtain rfl := step_gone hs
        exact ⟨.gone, hs, rfl, .inl rfl⟩
      · refine ⟨_, step_pop hi hs, rfl, ?_⟩
        rcases step_live hs with ⟨rfl, _⟩ | ⟨h', rfl, e⟩
        · exact .inl rfl
        · exact .inr ⟨h', rfl, e.inbox.ne_nil hi⟩)
    (by simp) ⟨rfl, .inr ⟨h, rfl, hi⟩⟩ H
  exact ht

end View

/-! ## Reassembly -/

def dataFrames (i : StreamId) (ps : List Bytes) : List Frame := ps.map (Frame.mk i .data)

def wireBytes (ps : List Bytes) : Nat := (ps.map fun p => asU32 p.length).sum

@[simp] theorem wireBytes_nil : wireBytes [] = 0 := rfl

@[simp] theorem wireBytes_cons (p : Bytes) (ps : List Bytes) :
    wireBytes (p :: ps) = asU32 p.length + wireBytes ps := by simp [wireBytes]

@[simp] theorem wireBytes_append (ps qs : List Bytes) :
    wireBytes (ps ++ qs) = wireBytes ps + wireBytes qs := by simp [wireBytes]

@[simp] theorem dataBytes_dataFrames (i : StreamId) (ps : List Bytes) :
    dataBytes (dataFrames i ps) = wireBytes ps := by
  induction ps with
  | nil => rfl
  | cons p ps ih => simp_all [dataFrames, Frame.dataLen]

/-- The DATA payloads `ps` carry the message `m`: each decodes to a piece of it, all but the last
flagged MORE. -/
inductive Splits [ThirdParty] (P : Params) (i : StreamId) : List Bytes → Bytes → Prop where
  | last {p d : Bytes} : Connection.parseData P i p = .ok (d, false) → Splits P i [p] d
  | more {p d m : Bytes} {ps : List Bytes} : Connection.parseData P i p = .ok (d, true) →
    Splits P i ps m → Splits P i (p :: ps) (d ++ m)

section Splits
variable [ThirdParty] {P : Params} {odd : Bool} {i : StreamId}

open Connection in
theorem parseData_fragmentPayload {stance : Compress} {cls : Class} {more : Bool} {chunk : Bytes}
    (h : chunk.length ≤ P.maxFrame.toNat * decompressCapFactor) :
    parseData P i (fragmentPayload stance cls more chunk) = .ok (chunk, more) := by
  unfold fragmentPayload
  dsimp only
  split
  · rename_i packed hp
    simp only [Option.filter_eq_some_iff] at hp
    obtain ⟨hz, _⟩ := hp
    have hz : ThirdParty.zstdCompress chunk = some packed := by
      split at hz
      · exact hz
      · cases hz
    have hd := ThirdParty.zstd_inverse hz h
    cases more <;> simp only [parseData, hd] <;> rfl
  · cases more <;> rfl

theorem fragmentPayload_length (stance : Compress) (cls : Class) (more : Bool) (chunk : Bytes) :
    (Connection.fragmentPayload stance cls more chunk).length ≤ chunk.length + 1 := by
  unfold Connection.fragmentPayload
  dsimp only
  split
  · rename_i packed hp
    simp only [Option.filter_eq_some_iff, decide_eq_true_eq] at hp
    simp only [List.length_cons]
    omega
  · simp

open Connection in
theorem payloads_singleton (stance : Compress) (cls : Class) (c : Bytes) :
    payloads stance cls [c] = [fragmentPayload stance cls false c] := rfl

open Connection in
theorem payloads_cons_cons (stance : Compress) (cls : Class) (c c' : Bytes) (cs : List Bytes) :
    payloads stance cls (c :: c' :: cs) =
      fragmentPayload stance cls true c :: payloads stance cls (c' :: cs) := by
  unfold payloads
  rw [List.mapIdx_cons]
  congr 1
  refine List.mapIdx_eq_mapIdx_iff.mpr fun j hj => ?_
  simp

open Connection in
theorem splits_payloads (stance : Compress) (cls : Class) {frags : List Bytes} (hne : frags ≠ [])
    (hlen : ∀ c ∈ frags, c.length ≤ P.maxFrame.toNat * decompressCapFactor) :
    Splits P i (payloads stance cls frags) frags.flatten := by
  induction frags with
  | nil => exact absurd rfl hne
  | cons c cs ih =>
    cases cs with
    | nil =>
      rw [payloads_singleton, List.flatten_singleton]
      exact .last (parseData_fragmentPayload (hlen c (by simp)))
    | cons c' cs =>
      rw [payloads_cons_cons, List.flatten_cons]
      exact .more (parseData_fragmentPayload (hlen c (by simp)))
        (ih (by simp) fun d hd => hlen d (List.mem_cons_of_mem _ hd))

open Connection in
theorem payloads_length (stance : Compress) (cls : Class) (frags : List Bytes) :
    ((payloads stance cls frags).map List.length).sum ≤ frags.flatten.length + frags.length := by
  induction frags with
  | nil => simp [payloads]
  | cons c cs ih =>
    cases cs with
    | nil =>
      have := fragmentPayload_length stance cls false c
      simpa [payloads_singleton] using this
    | cons c' cs =>
      have := fragmentPayload_length stance cls true c
      rw [payloads_cons_cons, List.map_cons, List.sum_cons, List.flatten_cons, List.length_append,
        List.length_cons]
      omega

open Connection in
theorem mem_payloads {stance : Compress} {cls : Class} {frags : List Bytes} {p : Bytes}
    (hp : p ∈ payloads stance cls frags) : ∃ c ∈ frags, p.length ≤ c.length + 1 := by
  unfold payloads at hp
  obtain ⟨j, hj, rfl⟩ := List.mem_mapIdx.mp hp
  exact ⟨_, List.getElem_mem hj, fragmentPayload_length ..⟩

variable {ps : List Bytes} {m : Bytes} {h h' : RecvHalf} {pre : List Frame}

theorem View.step_data {p d : Bytes} {more : Bool} (hp : Connection.parseData P i p = .ok (d, more)) :
    View.step P odd (.live h) ⟨i, .data, p⟩ =
      (h.onData P (asU32 p.length) d more).map .live := by
  simp only [View.step, hp]

theorem Splits.run_gone (S : Splits P i ps m) :
    View.run P odd .gone (dataFrames i ps) = some .gone := by
  have hstep {p d : Bytes} {more : Bool} (hp : Connection.parseData P i p = .ok (d, more)) :
      View.step P odd .gone ⟨i, .data, p⟩ = some .gone := by
    simp only [View.step, hp]
  induction S with
  | last hp => exact run_cons_eq_some.mpr ⟨_, hstep hp, rfl⟩
  | more hp _ ih => exact run_cons_eq_some.mpr ⟨_, hstep hp, ih⟩

/-- The payloads of a message, within the receiver's window, put the message in the inbox. -/
theorem Splits.run_live (S : Splits P i ps m) (odd : Bool) (ho : h.remoteOpen = true)
    (hn : wireBytes ps ≤ h.recv.remaining)
    (hm : h.partialMsg.length + m.length ≤ P.maxMessage.toNat) :
    ∃ h', View.run P odd (.live h) (dataFrames i ps) = some (.live h') ∧ h'.remoteOpen = true ∧
      h'.partialMsg = [] ∧ h'.partialWire = 0 ∧
      h'.messages = h.messages ++ [h.partialMsg ++ m] := by
  induction S generalizing h with
  | @last p d hp =>
    have hd : h.onData P (asU32 p.length) d false = some _ :=
      RecvHalf.onData_eq_some.mpr ⟨ho, by simpa using hn, hm, rfl⟩
    refine ⟨h.deliver _ _ d false, run_cons_eq_some.mpr
      ⟨_, by rw [View.step_data hp, hd]; rfl, rfl⟩, ho, rfl, rfl, ?_⟩
    simp [RecvHalf.messages, RecvHalf.deliver]
  | @more p d m ps hp _ ih =>
    simp only [wireBytes_cons] at hn
    simp only [List.length_append] at hm
    have hd : h.onData P (asU32 p.length) d true = some _ :=
      RecvHalf.onData_eq_some.mpr ⟨ho, by omega, by omega, rfl⟩
    obtain ⟨h', hrun, ho', hp', hw', hmsg⟩ := ih (h := h.deliver
        { h.recv with remaining := h.recv.remaining - asU32 p.length } (asU32 p.length) d true)
      ho (by simp only [RecvHalf.deliver, if_true]; omega)
      (by simp only [RecvHalf.deliver, if_true, List.length_append]; omega)
    refine ⟨h', run_cons_eq_some.mpr ⟨_, by rw [View.step_data hp, hd]; rfl, hrun⟩, ho', hp', hw', ?_⟩
    rw [hmsg]
    simp [RecvHalf.messages, RecvHalf.deliver]

/-- Before the last payload the inbox does not change. -/
theorem Splits.messages_of_isPrefix (S : Splits P i ps m) (hpre : pre <+: dataFrames i ps)
    (hne : pre ≠ dataFrames i ps) (H : View.run P odd (.live h) pre = some (.live h')) :
    h'.messages = h.messages := by
  induction S generalizing h pre with
  | @last p d hp =>
    have hpre : pre <+: [] ++ [⟨i, .data, p⟩] := hpre
    rcases List.prefix_concat_iff.mp hpre with h | h
    · exact absurd h hne
    · cases List.prefix_nil.mp h
      cases H
      rfl
  | @more p d m ps hp _ ih =>
    rcases List.prefix_cons_iff.mp hpre with rfl | ⟨pre, rfl, hrest⟩
    · cases H
      rfl
    · obtain ⟨v, hv, H⟩ := run_cons_eq_some.mp H
      rw [View.step_data hp] at hv
      obtain ⟨h₁, hd, rfl⟩ := Option.map_eq_some_iff.mp hv
      obtain ⟨_, _, _, rfl⟩ := RecvHalf.onData_eq_some.mp hd
      rw [ih hrest (fun h => hne (by rw [h]; rfl)) H]
      rfl

end Splits

/-! ## Delivery -/

/-- The frames `fs` still to come on a stream are legal for a receiver whose view is `v`, and at
every point of them what the receiver's application has taken, followed by what waits in the
inbox, is an initial part of what the sender accepted: all of it once FIN was read. -/
structure Delivery [ThirdParty] (P : Params) (odd : Bool) (v : View) (fs : List Frame)
    (sent taken : List Bytes) : Prop where
  legal : ∃ v', View.run P odd v fs = some v'
  delivers {pre : List Frame} {h : RecvHalf} : pre <+: fs →
    View.run P odd v pre = some (.live h) →
    taken ++ h.messages <+: sent ∧ (h.remoteOpen = false → taken ++ h.messages = sent)

/-- A receiving half that has read everything a tracked sending half committed to send. `granted`
is the credit on its way back to the sender. -/
structure Settled (s : SendHalf) (granted : Nat) (sent taken : List Bytes) (h : RecvHalf) :
    Prop where
  remoteOpen : h.remoteOpen = s.localOpen
  partialMsg : h.partialMsg = []
  partialWire : h.partialWire = 0
  credit : h.recv.remaining + s.outboxBytes = s.credit + granted
  messages : taken ++ h.messages = sent

namespace Delivery

variable [ThirdParty] {P : Params} {odd : Bool} {v v' : View} {h : RecvHalf} {f : Frame}
  {fs gs : List Frame} {sent taken : List Bytes} {i : StreamId} {s : SendHalf} {granted : Nat}

theorem of_isPrefix (D : Delivery P odd v fs sent taken) (hg : gs <+: fs) :
    Delivery P odd v gs sent taken where
  legal := D.legal.elim fun _ h => Automaton.run_of_isPrefix hg h
  delivers hpre := D.delivers (hpre.trans hg)

theorem gone (H : View.run P odd .gone fs = some v') : Delivery P odd .gone fs sent taken where
  legal := ⟨_, H⟩
  delivers _ H := by cases View.run_gone H

theorem forget (D : Delivery P odd v fs sent taken) (hv : v ≠ .unknown) :
    Delivery P odd .gone fs sent taken :=
  D.legal.elim fun _ H => gone (View.run_gone_of_known hv H)

/-- The receiver reads the first frame. -/
theorem step (D : Delivery P odd v (f :: fs) sent taken) :
    ∃ v', View.step P odd v f = some v' ∧ Delivery P odd v' fs sent taken := by
  obtain ⟨w, hw⟩ := D.legal
  obtain ⟨v', hv', hw⟩ := run_cons_eq_some.mp hw
  refine ⟨v', hv', ⟨w, hw⟩, fun {pre h} hpre H => ?_⟩
  exact D.delivers (List.cons_prefix_cons.mpr ⟨rfl, hpre⟩) (run_cons_eq_some.mpr ⟨v', hv', H⟩)

theorem nil (hv : ∀ h, v = .live h → taken ++ h.messages <+: sent ∧
    (h.remoteOpen = false → taken ++ h.messages = sent)) : Delivery P odd v [] sent taken where
  legal := ⟨v, rfl⟩
  delivers hpre H := by
    cases List.prefix_nil.mp hpre
    cases H
    exact hv _ rfl

theorem concat_rst {code : UInt32} (D : Delivery P odd v fs sent taken)
    (hv : ∀ v', View.run P odd v fs = some v' → v' ≠ .unknown) :
    Delivery P odd v (fs ++ [⟨i, .rst, ThirdParty.rst.encode ⟨code⟩⟩]) sent taken := by
  obtain ⟨v', hv'⟩ := D.legal
  have hstep : View.step P odd v' ⟨i, .rst, ThirdParty.rst.encode ⟨code⟩⟩ = some .gone := by
    have := hv v' hv'
    cases v' <;> simp_all [View.step, Codec.decode_encode]
  have hrun : View.run P odd v (fs ++ [⟨i, .rst, ThirdParty.rst.encode ⟨code⟩⟩]) = some .gone :=
    run_append_eq_some.mpr ⟨v', hv', by rw [Automaton.run_singleton]; exact hstep⟩
  refine ⟨⟨_, hrun⟩, fun {pre h} hpre H => ?_⟩
  rcases List.prefix_concat_iff.mp hpre with rfl | hpre
  · rw [hrun] at H; cases H
  · exact D.delivers hpre H

theorem concat_fin (D : Delivery P odd v fs sent taken) (H : View.run P odd v fs = some (.live h))
    (S : Settled s granted sent taken h) (ho : s.localOpen = true) :
    Delivery P odd v (fs ++ [⟨i, .fin, []⟩]) sent taken ∧
      View.run P odd v (fs ++ [⟨i, .fin, []⟩]) = some (.live { h with remoteOpen := false }) := by
  have hstep : View.step P odd (.live h) ⟨i, .fin, []⟩ =
      some (.live { h with remoteOpen := false }) := by
    simp [View.step, RecvHalf.onFin, S.remoteOpen, ho, S.partialMsg]
  have hrun : View.run P odd v (fs ++ [⟨i, .fin, []⟩]) =
      some (.live { h with remoteOpen := false }) :=
    run_append_eq_some.mpr ⟨_, H, by rw [Automaton.run_singleton]; exact hstep⟩
  refine ⟨⟨⟨_, hrun⟩, fun {pre h'} hpre H' => ?_⟩, hrun⟩
  rcases List.prefix_concat_iff.mp hpre with rfl | hpre
  · rw [hrun] at H'
    cases H'
    exact ⟨S.messages ▸ List.prefix_rfl, fun _ => S.messages⟩
  · exact D.delivers hpre H'

/-- The sender accepts the message `m`. -/
theorem concat_message {ps : List Bytes} {m : Bytes} (D : Delivery P odd v fs sent taken)
    (H : View.run P odd v fs = some (.live h)) (S : Settled s granted sent taken h)
    (hs : Splits P i ps m) (ho : s.localOpen = true) (hn : wireBytes ps + s.outboxBytes ≤ s.credit)
    (hm : m.length ≤ P.maxMessage.toNat) :
    Delivery P odd v (fs ++ dataFrames i ps) (sent ++ [m]) taken ∧
      ∃ h', View.run P odd v (fs ++ dataFrames i ps) = some (.live h') ∧
        Settled { s with outbox := s.outbox ++ ps, outboxBytes := s.outboxBytes + wireBytes ps }
          granted (sent ++ [m]) taken h' := by
  have hopen : h.remoteOpen = true := S.remoteOpen.trans ho
  have hrem := S.credit
  obtain ⟨h', hrun', ho', hp', hw', hmsg⟩ := hs.run_live odd hopen (by omega)
    (by simpa [S.partialMsg] using hm)
  have hrun : View.run P odd v (fs ++ dataFrames i ps) = some (.live h') :=
    run_append_eq_some.mpr ⟨_, H, hrun'⟩
  have hmsgs : taken ++ h'.messages = sent ++ [m] := by
    rw [hmsg, ← List.append_assoc, S.messages, S.partialMsg, List.nil_append]
  have hext := (View.extends_of_run hrun').remaining
  rw [dataBytes_dataFrames] at hext
  refine ⟨⟨⟨_, hrun⟩, fun {pre k} hpre K => ?_⟩, h', hrun,
    ⟨ho'.trans ho.symm, hp', hw', by dsimp only; omega, hmsgs⟩⟩
  rcases List.prefix_or_prefix_of_prefix hpre (List.prefix_append fs _) with hle | ⟨rest, rfl⟩
  · -- FIN was not read yet, since the sender still accepts messages
    obtain ⟨rest, rfl⟩ := hle
    obtain ⟨w, hw, hrest⟩ := run_append_eq_some.mp H
    rw [show Automaton.run _ _ _ = _ from K] at hw
    cases hw
    have hkopen : k.remoteOpen ≠ false := fun hk => by
      have := (View.extends_of_run hrest).closes hk
      simp [this] at hopen
    exact ⟨(D.delivers (List.prefix_append ..) K).1.trans (List.prefix_append ..),
      fun hk => absurd hk hkopen⟩
  · have hrest : rest <+: dataFrames i ps := (List.prefix_append_right_inj fs).mp hpre
    by_cases hall : rest = dataFrames i ps
    · subst hall
      rw [hrun] at K
      cases K
      exact ⟨hmsgs ▸ List.prefix_rfl, fun _ => hmsgs⟩
    · have K' : View.run P odd (.live h) rest = some (.live k) := by
        rw [← View.run_append H]; exact K
      have hk := hs.messages_of_isPrefix hrest hall K'
      obtain ⟨l, hl⟩ := hrest
      obtain ⟨w, hw, hlast⟩ := run_append_eq_some.mp (hl ▸ hrun')
      rw [show Automaton.run _ _ _ = _ from K'] at hw
      cases hw
      have hkopen : k.remoteOpen ≠ false := fun hk => by
        have := (View.extends_of_run hlast).closes hk
        simp [this] at ho'
      rw [hk, S.messages]
      exact ⟨List.prefix_append .., fun hf => absurd hf hkopen⟩

/-- The receiver's application takes the first message. -/
theorem pop {m : Bytes} {w c cr : Nat} {rest : List (Bytes × Nat)}
    (D : Delivery P odd (.live h) fs sent taken) (hi : h.inbox = (m, w) :: rest) :
    Delivery P odd (.live (h.pop c cr)) fs sent (taken ++ [m]) := by
  have hne : h.inbox ≠ [] := by simp [hi]
  obtain ⟨v', hv'⟩ := D.legal
  refine ⟨⟨_, View.run_pop hne hv'⟩, fun {pre k} hpre K => ?_⟩
  obtain ⟨v₁, hv₁⟩ := Automaton.run_of_isPrefix hpre hv'
  rw [View.run_pop hne hv₁] at K
  rcases View.run_live hv₁ with rfl | ⟨h₁, rfl, e⟩
  · cases K
  · cases K
    obtain ⟨l, hl⟩ := e.inbox
    have hmsg : taken ++ [m] ++ (h₁.pop c cr).messages = taken ++ h₁.messages := by
      simp [RecvHalf.messages, RecvHalf.pop, ← hl, hi]
    rw [hmsg]
    exact D.delivers hpre hv₁

theorem settled_pop {m : Bytes} {w : Nat} {rest : List (Bytes × Nat)} {h' : RecvHalf} (c cr : Nat)
    (hi : h.inbox = (m, w) :: rest) (H : View.run P odd (.live h) fs = some (.live h'))
    (S : Settled s granted sent taken h') :
    View.run P odd (.live (h.pop c cr)) fs = some (.live (h'.pop c cr)) ∧
      Settled s (granted + cr) sent (taken ++ [m]) (h'.pop c cr) := by
  refine ⟨View.run_pop (by simp [hi]) H, S.remoteOpen, S.partialMsg, S.partialWire, ?_, ?_⟩
  · have := S.credit
    simp only [RecvHalf.pop]
    omega
  · obtain ⟨l, hl⟩ := (View.extends_of_run H).inbox
    rw [← S.messages]
    simp [RecvHalf.messages, RecvHalf.pop, ← hl, hi]

end Delivery

end TunnelWeaver.Mux
