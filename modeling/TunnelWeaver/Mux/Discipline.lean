import TunnelWeaver.Mux.Exposed

/-! The frames a connection emits for one stream, whatever its peer does. `Stage.step` is the
grammar they follow; `Disciplined` relates the frames on the wire and in the control queue to the
state of the stream. -/

namespace TunnelWeaver.Mux

/-- How far a stream has come on the wire. -/
inductive Stage where
  | idle
  | live
  | finned
  | dead
  deriving DecidableEq

namespace Stage

/-- OPEN first, DATA until FIN, nothing after RST; window updates anywhere in between. -/
def step : Stage → FrameType → Option Stage
  | idle, .open => some live
  | live, .data | live, .windowUpdate => some live
  | live, .fin => some finned
  | finned, .windowUpdate => some finned
  | live, .rst | finned, .rst => some dead
  | _, _ => none

/-- A stream of this side begins with its OPEN; one of the peer was opened by the peer. -/
def start (server : Bool) (id : StreamId) : Stage :=
  if (id % 2 == 1) = server then live else idle

variable {σ τ : Stage} {ts : List FrameType}

theorem run_windowUpdates (hs : ∀ t ∈ ts, t = .windowUpdate) (h : Automaton.run step σ ts = some τ) :
    τ = σ := by
  induction ts generalizing σ with
  | nil =>
    cases h
    rfl
  | cons t ts ih =>
    obtain ⟨σ₁, h₁, h₂⟩ := Automaton.run_cons_eq_some.mp h
    obtain rfl := hs t (by simp)
    rw [ih (fun t ht => hs t (by simp [ht])) h₂]
    cases σ <;> cases h₁ <;> rfl

/-- A stage that FIN leads to is left by RST only. -/
theorem fin_notMem (h : Automaton.run step σ ts = some τ) (hτ : τ = live ∨ τ = idle) :
    .fin ∉ ts := by
  induction ts using List.reverseRecOn generalizing τ with
  | nil => simp
  | append_singleton ts t ih =>
    obtain ⟨σ₁, h₁, h⟩ := Automaton.run_append_eq_some.mp h
    rw [Automaton.run_singleton] at h
    have hσ : (σ₁ = live ∨ σ₁ = idle) ∧ t ≠ .fin := by
      obtain rfl | rfl := hτ <;> cases σ₁ <;> cases t <;> cases h <;> simp
    simpa [hσ.2.symm] using ih h₁ hσ.1

end Stage

/-! ## The frames of a stream -/

/-- The types of the frames for stream `i`. -/
def frameTypes (i : StreamId) (fs : List Frame) : List FrameType :=
  (fs.filter fun f => f.streamId = i).map (·.frameType)

/-- The DATA payloads for stream `i`. -/
def dataPayloads (i : StreamId) (fs : List Frame) : List Bytes :=
  (fs.filter fun f => f.streamId = i ∧ f.frameType = .data).map (·.payload)

section
variable {i : StreamId} {f : Frame} {fs gs : List Frame}

@[simp] theorem frameTypes_nil : frameTypes i [] = [] := rfl

@[simp] theorem frameTypes_append :
    frameTypes i (fs ++ gs) = frameTypes i fs ++ frameTypes i gs := by simp [frameTypes]

theorem frameTypes_self (h : f.streamId = i) : frameTypes i [f] = [f.frameType] := by
  simp [frameTypes, h]

theorem frameTypes_ne (h : f.streamId ≠ i) : frameTypes i [f] = [] := by
  simp [frameTypes, h]

@[simp] theorem dataPayloads_nil : dataPayloads i [] = [] := rfl

@[simp] theorem dataPayloads_append :
    dataPayloads i (fs ++ gs) = dataPayloads i fs ++ dataPayloads i gs := by simp [dataPayloads]

theorem dataPayloads_ne (h : f.streamId ≠ i ∨ f.frameType ≠ .data) : dataPayloads i [f] = [] := by
  simp only [dataPayloads, List.map_eq_nil_iff, List.filter_eq_nil_iff, List.mem_singleton, forall_eq,
    decide_eq_true_eq, not_and]
  rintro rfl
  exact h.resolve_left (not_not.mpr rfl)

theorem frameTypes_fin : frameTypes i [finFrame i] = [.fin] := by simp [frameTypes, finFrame]

theorem frameTypes_eq_nil (h : ∀ f ∈ fs, f.streamId ≠ i) : frameTypes i fs = [] := by
  simpa [frameTypes] using h

theorem dataPayloads_eq_nil (h : ∀ f ∈ fs, f.streamId ≠ i) : dataPayloads i fs = [] := by
  simp only [dataPayloads, List.map_eq_nil_iff, List.filter_eq_nil_iff, decide_eq_true_eq, not_and]
  exact fun f hf hi => absurd hi (h f hf)

/-- Apart from window updates the queue holds nothing for the stream. -/
theorem frameTypes_windowUpdates (h : streamFrames i fs = [])
    (ho : ∀ f ∈ fs, f.streamId = i → f.frameType.isStream = true ∨ f.frameType = .windowUpdate) :
    ∀ t ∈ frameTypes i fs, t = .windowUpdate := by
  intro t ht
  obtain ⟨f, hf, rfl⟩ := List.mem_map.mp ht
  rw [List.mem_filter, decide_eq_true_eq] at hf
  refine (ho f hf.1 hf.2).resolve_left fun hs => ?_
  have hmem : f ∈ streamFrames i fs := List.mem_filter.mpr ⟨hf.1, by simp [hf.2, hs]⟩
  rw [h] at hmem
  cases hmem

end

/-! ## The invariant -/

/-- The stage of a stream once its queued control frames are out: `live` while DATA may come. -/
def SendHalf.stage (s : SendHalf) : Stage :=
  if s.localOpen = true ∨ s.outbox ≠ [] then .live else .finned

section
variable [ThirdParty]

/-- The payloads `ps` carry the messages `ms`, in order. -/
def Carries (P : Params) (i : StreamId) (ps : List Bytes) (ms : List Bytes) : Prop :=
  ∃ pss, List.Forall₂ (Splits P i) pss ms ∧ ps = pss.flatten

/-- What a party has put on the wire and will put there from its control queue. -/
structure Disciplined (P : Params) (x : Party) : Prop where
  stage : ∀ i, i ≠ 0 → ∃ σ,
    Automaton.run Stage.step (.start x.e.server i) (frameTypes i (x.wire ++ x.e.control)) = some σ ∧
    ∀ s h, x.e.streams i = some (s, h) → σ = s.stage
  known : ∀ f ∈ x.wire, x.e.Known f.streamId
  opens : (openIds (x.wire ++ x.e.control) ++ [x.e.next]).Pairwise (· < ·)
  parity : ∀ i ∈ openIds (x.wire ++ x.e.control), (i % 2 == 1) = !x.e.server
  queued : ∀ i s h, x.e.streams i = some (s, h) →
    Carries P i (dataPayloads i x.wire ++ s.outbox) (x.sent i)
  finished : ∀ i, i ≠ 0 → .fin ∈ frameTypes i (x.wire ++ x.e.control) →
    Carries P i (dataPayloads i x.wire) (x.sent i)
  unsent : ∀ i, ¬x.e.Known i → x.sent i = []
  early : x.e.hs ≠ .done → ∀ i, x.sent i = []

variable {P P' : Params} {x x' : Party} {e' : Endpoint} {i : StreamId}

theorem Carries.nil : Carries P i [] [] := ⟨[], .nil, rfl⟩

theorem Carries.concat {ps qs ms : List Bytes} {m : Bytes} (H : Carries P i ps ms)
    (h : Splits P i qs m) : Carries P i (ps ++ qs) (ms ++ [m]) := by
  obtain ⟨pss, hall, rfl⟩ := H
  exact ⟨pss ++ [qs], List.rel_append hall (.cons h .nil), by simp⟩

theorem Disciplined.renegotiate (D : Disciplined P x) (hs : x.e.hs ≠ .done) : Disciplined P' x := by
  have hnil : ∀ {i ps}, Carries P i ps (x.sent i) → Carries P' i ps (x.sent i) := by
    rintro i ps ⟨pss, hall, rfl⟩
    rw [D.early hs i] at hall ⊢
    cases hall
    exact .nil
  exact { D with
    queued := fun i s h hi => hnil (D.queued i s h hi)
    finished := fun i hi hf => hnil (D.finished i hi hf) }

/-- Neither frames of streams nor their send halves change. -/
theorem Disciplined.keep (D : Disciplined P x) (hserver : x'.e.server = x.e.server)
    (hhs : x.e.hs = .done → x'.e.hs = .done) (hknown : ∀ i, x.e.Known i → x'.e.Known i)
    (hnext : x'.e.next = x.e.next) (hsent : x'.sent = x.sent)
    (hstreams : ∀ i s' h', x'.e.streams i = some (s', h') → ∃ s h, x.e.streams i = some (s, h) ∧
      s'.localOpen = s.localOpen ∧ s'.outbox = s.outbox)
    (htypes : ∀ i, i ≠ 0 → frameTypes i (x'.wire ++ x'.e.control) =
      frameTypes i (x.wire ++ x.e.control))
    (hopens : openIds (x'.wire ++ x'.e.control) = openIds (x.wire ++ x.e.control))
    (hdata : ∀ i, dataPayloads i x'.wire = dataPayloads i x.wire)
    (hwire : ∀ f ∈ x'.wire, x'.e.Known f.streamId) : Disciplined P x' := by
  refine ⟨fun i hi => ?_, hwire, ?_, ?_, fun i s' h' hs' => ?_, fun i hi hf => ?_, fun i hk => ?_,
    fun hs i => ?_⟩
  · obtain ⟨σ, hrun, hσ⟩ := D.stage i hi
    refine ⟨σ, by rw [hserver, htypes i hi]; exact hrun, fun s' h' hs' => ?_⟩
    obtain ⟨s, h, hs, ho, hb⟩ := hstreams i s' h' hs'
    rw [hσ s h hs, SendHalf.stage, SendHalf.stage, ho, hb]
  · rw [hopens, hnext]
    exact D.opens
  · rw [hopens, hserver]
    exact D.parity
  · obtain ⟨s, h, hs, _, hb⟩ := hstreams i s' h' hs'
    rw [hdata, hb, hsent]
    exact D.queued i s h hs
  · rw [htypes i hi] at hf
    rw [hdata, hsent]
    exact D.finished i hi hf
  · rw [hsent]
    exact D.unsent i fun h => hk (hknown i h)
  · rw [hsent]
    exact D.early (fun h => hs (hhs h)) i

/-- Only what the application or the connection itself knows changes. -/
theorem Disciplined.same (D : Disciplined P x) (hserver : e'.server = x.e.server)
    (hhs : x.e.hs = .done → e'.hs = .done) (hlast : x.e.lastPeer ≤ e'.lastPeer)
    (hnext : e'.next = x.e.next) (hcontrol : e'.control = x.e.control)
    (hstreams : ∀ i s' h', e'.streams i = some (s', h') → ∃ s h, x.e.streams i = some (s, h) ∧
      s'.localOpen = s.localOpen ∧ s'.outbox = s.outbox) : Disciplined P { x with e := e' } := by
  have hknown : ∀ i, x.e.Known i → e'.Known i := fun i h =>
    h.mono hserver (Nat.le_of_eq hnext.symm) hlast
  refine D.keep hserver hhs hknown hnext rfl hstreams (fun i _ => ?_) ?_ (fun _ => rfl)
    fun f hf => hknown _ (D.known f hf)
  · rw [hcontrol]
  · rw [hcontrol]

/-- Streams and queue are given up. -/
theorem Disciplined.shut (D : Disciplined P x) (prio : List Frame) :
    Disciplined P { x with e := x.e.shut prio } := by
  have hsub : openIds (x.wire ++ []) <+: openIds (x.wire ++ x.e.control) := by
    rw [List.append_nil, openIds_append]
    exact List.prefix_append ..
  refine ⟨fun i hi => ?_, D.known, ?_, fun i hi => D.parity i (hsub.subset hi),
    fun i s h hs => (by cases hs), fun i hi hf => D.finished i hi ?_, D.unsent, D.early⟩
  · obtain ⟨σ, hrun, _⟩ := D.stage i hi
    have hpre : frameTypes i (x.wire ++ []) <+: frameTypes i (x.wire ++ x.e.control) := by
      rw [List.append_nil, frameTypes_append]
      exact List.prefix_append ..
    obtain ⟨τ, hτ⟩ := Automaton.run_of_isPrefix hpre hrun
    exact ⟨τ, hτ, fun s h hs => by cases hs⟩
  · exact D.opens.sublist (hsub.sublist.append_right _)
  · have hf : .fin ∈ frameTypes i (x.wire ++ []) := hf
    rw [List.append_nil] at hf
    rw [frameTypes_append]
    exact List.mem_append_left _ hf

open Endpoint (Known)

/-- Stream `i` changes and frames for it are queued. -/
theorem Disciplined.pushed (D : Disciplined P x) {y : Option (SendHalf × RecvHalf)} {new : List Frame}
    (hid : ∀ f ∈ new, f.streamId = i) (hnew : ∀ f ∈ new, f.frameType ≠ .open)
    (hstage : ∀ σ, (∀ s h, x.e.streams i = some (s, h) → σ = s.stage) →
      ∃ τ, Automaton.run Stage.step σ (frameTypes i new) = some τ ∧
        ∀ s h, y = some (s, h) → τ = s.stage)
    (hqueued : ∀ s h, y = some (s, h) → Carries P i (dataPayloads i x.wire ++ s.outbox) (x.sent i))
    (hfin : .fin ∈ frameTypes i new → Carries P i (dataPayloads i x.wire) (x.sent i)) :
    Disciplined P { x with e := (x.e.set i y).push new } := by
  have hcontrol : ∀ j, frameTypes j (x.wire ++ (x.e.control ++ new)) =
      frameTypes j (x.wire ++ x.e.control) ++ frameTypes j new := fun j => by simp
  have hother : ∀ j, j ≠ i → frameTypes j new = [] := fun j hj =>
    frameTypes_eq_nil fun f hf h => hj (h.symm.trans (hid f hf))
  have hopens : openIds (x.wire ++ (x.e.control ++ new)) = openIds (x.wire ++ x.e.control) := by
    have hnil : openIds new = [] := by simpa [openIds] using hnew
    simp [hnil]
  refine ⟨fun j hj => ?_, D.known, ?_, ?_, fun j s h hs => ?_, fun j hj hf => ?_, D.unsent,
    D.early⟩
  · obtain ⟨σ, hrun, hσ⟩ := D.stage j hj
    change ∃ σ, Automaton.run Stage.step _ (frameTypes j (x.wire ++ (x.e.control ++ new))) = some σ ∧
      ∀ s h, Function.update x.e.streams i y j = some (s, h) → σ = s.stage
    rw [hcontrol]
    by_cases hji : j = i
    · subst hji
      obtain ⟨τ, hτ, hy⟩ := hstage σ hσ
      exact ⟨τ, Automaton.run_append_eq_some.mpr ⟨σ, hrun, hτ⟩, fun s h hs =>
        hy s h (by rwa [Function.update_self] at hs)⟩
    · refine ⟨σ, by rwa [hother j hji, List.append_nil], fun s h hs => hσ s h ?_⟩
      rwa [Function.update_of_ne hji] at hs
  · exact (congrArg (· ++ [x.e.next]) hopens).symm ▸ D.opens
  · intro j hj
    exact D.parity j (hopens ▸ hj)
  · have hs : Function.update x.e.streams i y j = some (s, h) := hs
    by_cases hji : j = i
    · subst hji
      exact hqueued s h (by rwa [Function.update_self] at hs)
    · exact D.queued j s h (by rwa [Function.update_of_ne hji] at hs)
  · have hmem : .fin ∈ frameTypes j (x.wire ++ (x.e.control ++ new)) := hf
    rw [hcontrol] at hmem
    rcases List.mem_append.mp hmem with hold | hpushed
    · exact D.finished j hj hold
    · by_cases hji : j = i
      · subst hji
        exact hfin hpushed
      · rw [hother j hji] at hpushed
        cases hpushed

/-- Nothing was emitted or accepted for an id that does not exist yet. -/
theorem Disciplined.silent (D : Disciplined P x) (G : x.e.Good P) (hk : ¬x.e.Known i) :
    frameTypes i (x.wire ++ x.e.control) = [] ∧ dataPayloads i x.wire = [] ∧ x.sent i = [] := by
  refine ⟨frameTypes_eq_nil fun f hf h => hk (h ▸ ?_), dataPayloads_eq_nil fun f hf h => hk (h ▸ ?_),
    D.unsent i hk⟩
  · rcases List.mem_append.mp hf with hf | hf
    · exact D.known f hf
    · exact (G.control f hf).2.2
  · exact D.known f hf

theorem Disciplined.open (D : Disciplined P x) (G : x.e.Good P) {window : Nat} {payload : Bytes}
    {r : RecvHalf} :
    Disciplined P { x with e := { (x.e.set x.e.next (some (.fresh window false, r))).push
      [⟨x.e.next, .open, payload⟩] with next := x.e.next + 2 } } := by
  obtain ⟨htypes, hdata, hsent⟩ := D.silent G G.not_known_next
  have hknown : ∀ j, x.e.Known j → Known { x.e with next := x.e.next + 2 } j := fun j h =>
    h.mono (e := x.e) rfl (Nat.le_add_right ..) Nat.le.refl
  have hcontrol : ∀ j, frameTypes j (x.wire ++ (x.e.control ++ [⟨x.e.next, .open, payload⟩])) =
      frameTypes j (x.wire ++ x.e.control) ++ frameTypes j [⟨x.e.next, .open, payload⟩] :=
    fun j => by simp
  have hopens : openIds (x.wire ++ (x.e.control ++ [⟨x.e.next, .open, payload⟩])) =
      openIds (x.wire ++ x.e.control) ++ [x.e.next] := by
    simp [openIds]
  have hset : ∀ j, j ≠ x.e.next → ∀ {s h}, Function.update x.e.streams x.e.next
      (some (.fresh window false, r)) j = some (s, h) → x.e.streams j = some (s, h) :=
    fun j hj {s h} hs => by rwa [Function.update_of_ne hj] at hs
  refine ⟨fun j hj => ?_, fun f hf => hknown _ (D.known f hf), ?_, fun j hj => ?_,
    fun j s h hs => ?_, fun j hj hf => ?_, fun j hk => D.unsent j fun h => hk (hknown j h), D.early⟩
  · change ∃ σ, Automaton.run Stage.step (.start x.e.server j) (frameTypes j (x.wire ++
      (x.e.control ++ [⟨x.e.next, .open, payload⟩]))) = some σ ∧ ∀ s h, Function.update x.e.streams
        x.e.next (some (.fresh window false, r)) j = some (s, h) → σ = s.stage
    rw [hcontrol]
    by_cases hji : j = x.e.next
    · subst hji
      have hstart : Stage.start x.e.server x.e.next = .idle := by
        unfold Stage.start
        rw [if_neg]
        change ¬(x.e.next % 2 == 1) = x.e.server
        rw [G.next_parity]
        cases x.e.server <;> simp
      rw [htypes, hstart, frameTypes_self (f := ⟨x.e.next, .open, payload⟩) rfl]
      refine ⟨.live, rfl, fun s h hs => ?_⟩
      rw [Function.update_self] at hs
      cases hs
      rfl
    · obtain ⟨σ, hrun, hσ⟩ := D.stage j hj
      rw [frameTypes_ne (Ne.symm hji), List.append_nil]
      exact ⟨σ, hrun, fun s h hs => hσ s h (hset j hji hs)⟩
  · change (openIds (x.wire ++ (x.e.control ++ [⟨x.e.next, .open, payload⟩])) ++
      [x.e.next + 2]).Pairwise (· < ·)
    rw [hopens]
    refine List.pairwise_append.mpr ⟨D.opens, List.pairwise_singleton .., fun a ha b hb => ?_⟩
    obtain rfl := List.mem_singleton.mp hb
    have hle : a ≤ x.e.next := by
      rcases List.mem_append.mp ha with ha | ha
      · exact Nat.le_of_lt ((List.pairwise_append.mp D.opens).2.2 a ha _ (by simp))
      · exact Nat.le_of_eq (List.mem_singleton.mp ha)
    exact Nat.lt_of_le_of_lt hle (Nat.lt_add_of_pos_right (by decide))
  · have hj : j ∈ openIds (x.wire ++ (x.e.control ++ [⟨x.e.next, .open, payload⟩])) := hj
    rw [hopens] at hj
    rcases List.mem_append.mp hj with hj | hj
    · exact D.parity j hj
    · obtain rfl := List.mem_singleton.mp hj
      exact G.next_parity
  · by_cases hji : j = x.e.next
    · subst hji
      have hs : Function.update x.e.streams x.e.next (some (.fresh window false, r)) x.e.next =
        some (s, h) := hs
      rw [Function.update_self] at hs
      cases hs
      change Carries P _ (dataPayloads _ x.wire ++ []) (x.sent _)
      rw [hdata, hsent]
      exact .nil
    · exact D.queued j s h (hset j hji hs)
  · have hf : .fin ∈ frameTypes j (x.wire ++ (x.e.control ++ [⟨x.e.next, .open, payload⟩])) := hf
    rw [hcontrol] at hf
    rcases List.mem_append.mp hf with hf | hf
    · exact D.finished j hj hf
    · by_cases hji : x.e.next = j
      · rw [frameTypes_self hji] at hf
        cases List.mem_singleton.mp hf
      · rw [frameTypes_ne hji] at hf
        cases hf

/-- The peer opens a stream. -/
theorem Disciplined.opened (D : Disciplined P x) (G : x.e.Good P) {window : Nat} {r : RecvHalf}
    (hpar : (i % 2 == 1) = x.e.server) (hlast : x.e.lastPeer < i) :
    Disciplined P { x with e := { x.e.set i (some (.fresh window true, r)) with lastPeer := i } } := by
  have hk : ¬x.e.Known i := by
    unfold Known
    rw [if_pos hpar]
    exact Nat.not_le.mpr hlast
  obtain ⟨htypes, hdata, hsent⟩ := D.silent G hk
  have hknown : ∀ j, x.e.Known j → Known { x.e with lastPeer := i } j := fun j h =>
    h.mono (e := x.e) rfl Nat.le.refl (Nat.le_of_lt hlast)
  have hset : ∀ j, j ≠ i → ∀ {s h}, Function.update x.e.streams i
      (some (.fresh window true, r)) j = some (s, h) → x.e.streams j = some (s, h) :=
    fun j hj {s h} hs => by rwa [Function.update_of_ne hj] at hs
  refine ⟨fun j hj => ?_, fun f hf => hknown _ (D.known f hf), D.opens, D.parity,
    fun j s h hs => ?_, D.finished, fun j hk => D.unsent j fun h => hk (hknown j h), D.early⟩
  · by_cases hji : j = i
    · subst hji
      have hstart : Stage.start x.e.server j = .live := if_pos hpar
      refine ⟨.live, ?_, fun s h hs => ?_⟩
      · change Automaton.run Stage.step (.start x.e.server j)
          (frameTypes j (x.wire ++ x.e.control)) = _
        rw [htypes, hstart]
        rfl
      · have hs : Function.update x.e.streams j (some (.fresh window true, r)) j = some (s, h) := hs
        rw [Function.update_self] at hs
        cases hs
        rfl
    · obtain ⟨σ, hrun, hσ⟩ := D.stage j hj
      exact ⟨σ, hrun, fun s h hs => hσ s h (hset j hji hs)⟩
  · by_cases hji : j = i
    · subst hji
      have hs : Function.update x.e.streams j (some (.fresh window true, r)) j = some (s, h) := hs
      rw [Function.update_self] at hs
      cases hs
      change Carries P _ (dataPayloads _ x.wire ++ []) (x.sent _)
      rw [hdata, hsent]
      exact .nil
    · exact D.queued j s h (hset j hji hs)

/-- A message is accepted, while DATA may still come. -/
theorem Disciplined.send (D : Disciplined P x) (G : x.e.Good P) {s s' : SendHalf} {h : RecvHalf}
    {m : Bytes} {ps : List Bytes} (hi : x.e.streams i = some (s, h)) (ho : s.localOpen = true)
    (hsplit : Splits P i ps m) (ho' : s'.localOpen = true) (hb : s'.outbox = s.outbox ++ ps) :
    Disciplined P { x with
      e := x.e.set i (some (s', h))
      sent := Function.update x.sent i (x.sent i ++ [m]) } := by
  obtain ⟨h0, hk, _⟩ := G.streams i s h hi
  have hstage : s.stage = .live := if_pos (.inl ho)
  have hstage' : s'.stage = .live := if_pos (.inl ho')
  have hset : ∀ j, j ≠ i → ∀ {s₁ h₁}, Function.update x.e.streams i (some (s', h)) j =
      some (s₁, h₁) → x.e.streams j = some (s₁, h₁) :=
    fun j hj {s h} hs => by rwa [Function.update_of_ne hj] at hs
  refine ⟨fun j hj => ?_, D.known, D.opens, D.parity, fun j s₁ h₁ hs => ?_, fun j hj hf => ?_,
    fun j hkj => ?_, fun hs => absurd (G.ready hi).done hs⟩
  · obtain ⟨σ, hrun, hσ⟩ := D.stage j hj
    refine ⟨σ, hrun, fun s₁ h₁ hs => ?_⟩
    by_cases hji : j = i
    · subst hji
      have hs : Function.update x.e.streams j (some (s', h)) j = some (s₁, h₁) := hs
      rw [Function.update_self] at hs
      cases hs
      rw [hσ s h hi, hstage, hstage']
    · exact hσ s₁ h₁ (hset j hji hs)
  · by_cases hji : j = i
    · subst hji
      have hs : Function.update x.e.streams j (some (s', h)) j = some (s₁, h₁) := hs
      rw [Function.update_self] at hs
      cases hs
      have hq := (D.queued j s h hi).concat hsplit
      rw [List.append_assoc, ← hb] at hq
      change Carries P j (dataPayloads j x.wire ++ s'.outbox) (Function.update x.sent j _ j)
      rwa [Function.update_self]
    · change Carries P j _ (Function.update x.sent i _ j)
      rw [Function.update_of_ne hji]
      exact D.queued j s₁ h₁ (hset j hji hs)
  · by_cases hji : j = i
    · subst hji
      -- a stream that still sends has no FIN on the way
      obtain ⟨σ, hrun, hσ⟩ := D.stage j hj
      exact absurd hf (Stage.fin_notMem hrun (.inl ((hσ s h hi).trans hstage)))
    · change Carries P j _ (Function.update x.sent i _ j)
      rw [Function.update_of_ne hji]
      exact D.finished j hj hf
  · have hji : j ≠ i := fun hji => hkj (hji ▸ hk)
    change Function.update x.sent i _ j = _
    rw [Function.update_of_ne hji]
    exact D.unsent j hkj

theorem Disciplined.emitPriority (D : Disciplined P x) (G : x.e.Good P) {f : Frame}
    {rest : List Frame} (hp : x.e.prio = f :: rest) :
    Disciplined P { x with e := { x.e with prio := rest }, wire := x.wire ++ [f] } := by
  obtain ⟨hid, htype⟩ := G.prio f (by simp [hp])
  have hne := FrameType.ne_of_isPriority htype
  refine D.keep rfl id (fun _ h => h) rfl rfl (fun j s h hs => ⟨s, h, hs, rfl, rfl⟩)
    (fun j hj => ?_) ?_ (fun j => ?_) fun g hg => ?_
  · have hnil : frameTypes j [f] = [] := frameTypes_ne fun h => hj (h.symm.trans hid)
    simp only [frameTypes_append, hnil, List.append_nil]
  · have hnil : openIds [f] = [] := openIds_cons_ne hne.1 []
    simp only [openIds_append, hnil, List.append_nil]
  · simp only [dataPayloads_append, dataPayloads_ne (.inr hne.2.2), List.append_nil]
  · rcases List.mem_append.mp hg with hg | hg
    · exact D.known g hg
    · obtain rfl := List.mem_singleton.mp hg
      rw [hid]
      exact G.known_zero

theorem Disciplined.emitControl (D : Disciplined P x) (G : x.e.Good P) {f : Frame}
    {rest : List Frame} (hc : x.e.control = f :: rest) :
    Disciplined P { x with
      e := { x.e with
        control := rest
        streams := Function.update x.e.streams f.streamId ((x.e.streams f.streamId).map fun y =>
          ({ y.1 with openSent := y.1.openSent || decide (f.frameType = .open) }, y.2)) }
      wire := x.wire ++ [f] } := by
  obtain ⟨_, hdata, hk⟩ := G.control f (by simp [hc])
  have hall : x.wire ++ [f] ++ rest = x.wire ++ x.e.control := by simp [hc]
  refine D.keep rfl id (fun _ h => h) rfl rfl (fun j s' h' hs' => ?_) (fun j _ => ?_) ?_
    (fun j => ?_) fun g hg => ?_
  · have hupd : Function.update x.e.streams f.streamId _ j = some (s', h') := hs'
    rw [Function.update_apply] at hupd
    split at hupd
    · rename_i hj
      subst hj
      obtain ⟨⟨s, h⟩, hs, heq⟩ := Option.map_eq_some_iff.mp hupd
      cases heq
      exact ⟨s, h, hs, rfl, rfl⟩
    · exact ⟨s', h', hupd, rfl, rfl⟩
  · exact congrArg (frameTypes j) hall
  · exact congrArg openIds hall
  · simp only [dataPayloads_append, dataPayloads_ne (.inr hdata), List.append_nil]
  · rcases List.mem_append.mp hg with hg | hg
    · exact D.known g hg
    · obtain rfl := List.mem_singleton.mp hg
      exact hk

theorem Disciplined.emitData (D : Disciplined P x) (G : x.e.Good P) {s s' : SendHalf} {h : RecvHalf}
    {p : Bytes} {rest : List Bytes} (hi : x.e.streams i = some (s, h)) (hsent : s.openSent = true)
    (hb : s.outbox = p :: rest) (hb' : s'.outbox = rest) (ho : s'.localOpen = s.localOpen) :
    Disciplined P { x with
      e := (x.e.set i (some (s', h))).push
        (if rest = [] ∧ s.localOpen = false then [finFrame i] else [])
      wire := x.wire ++ [⟨i, .data, p⟩] } := by
  obtain ⟨h0, hk, hg⟩ := G.streams i s h hi
  generalize hnew : (if rest = [] ∧ s.localOpen = false then [finFrame i] else []) = new
  have hid : ∀ f ∈ new, f = finFrame i ∧ rest = [] := by
    subst hnew
    intro f hf
    split at hf
    · rename_i hc
      exact ⟨List.mem_singleton.mp hf, hc.1⟩
    · cases hf
  have hother : ∀ j, j ≠ i → frameTypes j new = [] := fun j hj =>
    frameTypes_eq_nil fun f hf h => hj (h.symm.trans (congrArg Frame.streamId (hid f hf).1))
  have hopens : openIds (x.wire ++ [⟨i, .data, p⟩] ++ (x.e.control ++ new)) =
      openIds (x.wire ++ x.e.control) := by
    have hnil : openIds new = [] := by
      simp only [openIds, List.map_eq_nil_iff, List.filter_eq_nil_iff]
      intro f hf
      simp [(hid f hf).1, finFrame]
    have hdata : openIds [⟨i, .data, p⟩] = [] := rfl
    simp only [openIds_append, hnil, hdata, List.append_nil]
  -- only window updates wait in the queue, so the stream is live when DATA goes out
  have hlive : ∃ σ, Automaton.run Stage.step (.start x.e.server i) (frameTypes i x.wire) = some σ ∧
      Automaton.run Stage.step .live (frameTypes i x.e.control) = some .live ∧ σ = .live := by
    obtain ⟨τ, hrun, hτ⟩ := D.stage i h0
    rw [frameTypes_append] at hrun
    obtain ⟨σ, h₁, h₂⟩ := Automaton.run_append_eq_some.mp hrun
    have hwu := frameTypes_windowUpdates (hg.sent (.inr (by simp [hb])) hsent) fun f hf hfi => by
      cases (G.control f hf).1 with
      | conn hz => exact absurd (hfi.symm.trans hz) h0
      | stream _ ht => exact ht
    have hσ := Stage.run_windowUpdates hwu h₂
    have hτ' : τ = .live := (hτ s h hi).trans (if_pos (.inr (by simp [hb])))
    subst hτ'
    subst hσ
    exact ⟨_, h₁, h₂, rfl⟩
  obtain ⟨_, hwire, hcontrol, rfl⟩ := hlive
  have hnofin : .fin ∉ frameTypes i (x.wire ++ x.e.control) := by
    obtain ⟨τ, hrun, hτ⟩ := D.stage i h0
    exact Stage.fin_notMem hrun (.inl ((hτ s h hi).trans (if_pos (.inr (by simp [hb])))))
  have htypes : ∀ j, frameTypes j (x.wire ++ [⟨i, .data, p⟩] ++ (x.e.control ++ new)) =
      frameTypes j x.wire ++ (frameTypes j [⟨i, .data, p⟩] ++
        (frameTypes j x.e.control ++ frameTypes j new)) := fun j => by
    simp only [frameTypes_append, List.append_assoc]
  have hset : ∀ j, j ≠ i → ∀ {s₁ h₁}, Function.update x.e.streams i (some (s', h)) j =
      some (s₁, h₁) → x.e.streams j = some (s₁, h₁) :=
    fun j hj {s h} hs => by rwa [Function.update_of_ne hj] at hs
  have hself : ∀ {s₁ h₁}, Function.update x.e.streams i (some (s', h)) i = some (s₁, h₁) →
      s₁ = s' := fun hs => by
    rw [Function.update_self] at hs
    cases hs
    rfl
  have hdataSelf : dataPayloads i [⟨i, .data, p⟩] = [p] := by simp [dataPayloads]
  have hcarries : Carries P i (dataPayloads i (x.wire ++ [⟨i, .data, p⟩]) ++ rest) (x.sent i) := by
    have hq := D.queued i s h hi
    rw [hb] at hq
    simpa [hdataSelf] using hq
  have hdataNe : ∀ j, j ≠ i → dataPayloads j (x.wire ++ [⟨i, .data, p⟩]) = dataPayloads j x.wire :=
    fun j hj => by
      have hnil : dataPayloads j [⟨i, .data, p⟩] = [] := dataPayloads_ne (.inl (Ne.symm hj))
      simp only [dataPayloads_append, hnil, List.append_nil]
  refine ⟨fun j hj => ?_, fun f hf => ?_, ?_, fun j hj => D.parity j (hopens ▸ hj),
    fun j s₁ h₁ hs => ?_, fun j hj hf => ?_, D.unsent, D.early⟩
  · change ∃ σ, Automaton.run Stage.step _ (frameTypes j (x.wire ++ [⟨i, .data, p⟩] ++
      (x.e.control ++ new))) = some σ ∧
        ∀ s h₁, Function.update x.e.streams i (some (s', h)) j = some (s, h₁) → σ = s.stage
    rw [htypes]
    by_cases hji : j = i
    · subst hji
      have hfin : Automaton.run Stage.step .live (frameTypes j new) = some s'.stage := by
        subst hnew
        unfold SendHalf.stage
        rw [ho, hb']
        by_cases hc : rest = [] ∧ s.localOpen = false
        · rw [if_pos hc, if_neg (by simp [hc.1, hc.2]), frameTypes_fin]
          rfl
        · rw [if_neg hc, if_pos]
          · rfl
          · by_cases hr : rest = []
            · exact .inl (by simpa [hr] using hc)
            · exact .inr hr
      refine ⟨s'.stage, ?_, fun s₁ h₁ hs => by rw [hself hs]⟩
      rw [frameTypes_self (f := ⟨j, .data, p⟩) rfl]
      refine Automaton.run_append_eq_some.mpr ⟨.live, hwire, ?_⟩
      refine Automaton.run_append_eq_some.mpr ⟨.live, rfl, ?_⟩
      exact Automaton.run_append_eq_some.mpr ⟨.live, hcontrol, hfin⟩
    · obtain ⟨σ, hrun, hσ⟩ := D.stage j hj
      rw [frameTypes_ne (f := ⟨i, .data, p⟩) (Ne.symm hji), hother j hji, List.nil_append,
        List.append_nil, ← frameTypes_append]
      exact ⟨σ, hrun, fun s h hs => hσ s h (hset j hji hs)⟩
  · rcases List.mem_append.mp hf with hf | hf
    · exact D.known f hf
    · obtain rfl := List.mem_singleton.mp hf
      exact hk
  · exact (congrArg (· ++ [x.e.next]) hopens).symm ▸ D.opens
  · by_cases hji : j = i
    · subst hji
      rw [hself hs, hb']
      exact hcarries
    · change Carries P j (dataPayloads j (x.wire ++ _) ++ _) _
      rw [hdataNe j hji]
      exact D.queued j s₁ h₁ (hset j hji hs)
  · change Carries P j (dataPayloads j (x.wire ++ [⟨i, .data, p⟩])) _
    have hmem : .fin ∈ frameTypes j (x.wire ++ [⟨i, .data, p⟩] ++ (x.e.control ++ new)) := hf
    rw [htypes] at hmem
    by_cases hji : j = i
    · subst hji
      rw [frameTypes_append, List.mem_append, not_or] at hnofin
      rw [frameTypes_self (f := ⟨j, .data, p⟩) rfl] at hmem
      have hmem : .fin ∈ frameTypes j new := by simpa [hnofin.1, hnofin.2] using hmem
      obtain ⟨f, hf, _⟩ := List.mem_map.mp hmem
      rw [(hid f (List.mem_filter.mp hf).1).2, List.append_nil] at hcarries
      exact hcarries
    · rw [frameTypes_ne (f := ⟨i, .data, p⟩) (Ne.symm hji), hother j hji, List.nil_append,
        List.append_nil, ← frameTypes_append] at hmem
      rw [hdataNe j hji]
      exact D.finished j hj hmem

theorem Disciplined.finish (D : Disciplined P x) {s : SendHalf} {h : RecvHalf}
    (hi : x.e.streams i = some (s, h)) (ho : s.localOpen = true) :
    Disciplined P { x with
      e := (x.e.set i (some ({ s with localOpen := false }, h))).push
        (if s.outbox = [] then [finFrame i] else []) } := by
  have hq := D.queued i s h hi
  by_cases hb : s.outbox = []
  · rw [if_pos hb]
    refine D.pushed (by simp [finFrame]) (by simp [finFrame]) (fun σ hσ => ⟨.finned, ?_, ?_⟩) ?_
      fun _ => by simpa [hb] using hq
    · rw [hσ s h hi, SendHalf.stage, if_pos (.inl ho), frameTypes_fin]
      rfl
    · rintro _ _ ⟨⟩
      simp [SendHalf.stage, hb]
    · rintro _ _ ⟨⟩
      exact hq
  · rw [if_neg hb]
    refine D.pushed (by simp) (by simp) (fun σ hσ => ⟨σ, rfl, ?_⟩) ?_ (by simp)
    · rintro _ _ ⟨⟩
      simp [hσ s h hi, SendHalf.stage, ho, hb]
    · rintro _ _ ⟨⟩
      exact hq

theorem Disciplined.reset (D : Disciplined P x) {s : SendHalf} {h : RecvHalf} {payload : Bytes}
    (hi : x.e.streams i = some (s, h)) :
    Disciplined P { x with e := (x.e.set i none).push [⟨i, .rst, payload⟩] } := by
  refine D.pushed (by simp) (by simp) (fun σ hσ => ⟨.dead, ?_, (by rintro _ _ ⟨⟩)⟩)
    (by rintro _ _ ⟨⟩) fun hf => ?_
  · rw [hσ s h hi, frameTypes_self (f := ⟨i, .rst, payload⟩) rfl, SendHalf.stage]
    split <;> rfl
  · rw [frameTypes_self (f := ⟨i, .rst, payload⟩) rfl] at hf
    cases List.mem_singleton.mp hf

theorem Disciplined.take (D : Disciplined P x) {s : SendHalf} {h h' : RecvHalf} {new : List Frame}
    (hnew : new = [] ∨ ∃ payload, new = [⟨i, .windowUpdate, payload⟩])
    (hi : x.e.streams i = some (s, h)) :
    Disciplined P { x with e := (x.e.set i (some (s, h'))).push new } := by
  have htypes : frameTypes i new = [] ∨ frameTypes i new = [.windowUpdate] := by
    obtain rfl | ⟨payload, rfl⟩ := hnew
    · exact .inl rfl
    · exact .inr (frameTypes_self (f := ⟨i, .windowUpdate, payload⟩) rfl)
  have hall : ∀ f ∈ new, f.streamId = i ∧ f.frameType ≠ .open := by
    obtain rfl | ⟨payload, rfl⟩ := hnew <;> simp
  refine D.pushed (fun f hf => (hall f hf).1) (fun f hf => (hall f hf).2)
    (fun σ hσ => ⟨s.stage, ?_, ?_⟩) ?_ fun hf => ?_
  · rw [hσ s h hi]
    obtain ht | ht := htypes <;> rw [ht]
    · rfl
    · unfold SendHalf.stage
      split <;> rfl
  · rintro _ _ ⟨⟩
    rfl
  · rintro _ _ ⟨⟩
    exact D.queued i s h hi
  · obtain ht | ht := htypes <;> rw [ht] at hf
    · cases hf
    · cases List.mem_singleton.mp hf

/-- Frames of the connection itself are queued. -/
theorem Disciplined.conn (D : Disciplined P x) {f : Frame} (hid : f.streamId = 0)
    (ht : f.frameType ≠ .open) : Disciplined P { x with e := x.e.push [f] } := by
  refine D.keep rfl id (fun _ h => h) rfl rfl (fun j s h hs => ⟨s, h, hs, rfl, rfl⟩)
    (fun j hj => ?_) ?_ (fun _ => rfl) D.known
  · have hnil : frameTypes j [f] = [] := frameTypes_ne fun h => hj (h.symm.trans hid)
    simp only [Endpoint.push, frameTypes_append, hnil, List.append_nil]
  · have hnil : openIds [f] = [] := openIds_cons_ne ht []
    simp only [Endpoint.push, openIds_append, hnil, List.append_nil]

/-- A stream changes without its send half losing or gaining DATA, or is dropped. -/
theorem Disciplined.touch (D : Disciplined P x) {y : Option (SendHalf × RecvHalf)}
    (hy : ∀ s' h', y = some (s', h') → ∃ s h, x.e.streams i = some (s, h) ∧
      s'.localOpen = s.localOpen ∧ s'.outbox = s.outbox) :
    Disciplined P { x with e := x.e.set i y } := by
  refine D.same rfl id Nat.le.refl rfl rfl fun j s' h' hs' => ?_
  have hupd : Function.update x.e.streams i y j = some (s', h') := hs'
  rw [Function.update_apply] at hupd
  split at hupd
  · rename_i hj
    subst hj
    exact hy s' h' hupd
  · exact ⟨s', h', hupd, rfl, rfl⟩

theorem Disciplined.tau (D : Disciplined P x) (G : x.e.Good P) (H : x.e.Step P .tau e') :
    Disciplined P { x with e := e' } := by
  cases H with
  | «open» => exact D.open G
  | finish hi ho => exact D.finish hi ho
  | reset hi => exact D.reset hi
  | drop hi => exact D.touch (by rintro _ _ ⟨⟩)
  | finished => exact D.same rfl id Nat.le.refl rfl rfl fun j s h hs => ⟨s, h, hs, rfl, rfl⟩
  | conn _ hid ht =>
    refine D.conn hid ?_
    rcases ht with ht | ht <;> rw [ht] <;> rintro ⟨⟩
  | close => exact D.shut _

theorem Disciplined.consume (D : Disciplined P x) (G : x.e.Good P) {f : Frame}
    (H : x.e.Step P (.consume f) e') : Disciplined P { x with e := e' } := by
  have hsame : ∀ i (s : SendHalf) (h : RecvHalf), x.e.streams i = some (s, h) → ∃ s₀ h₀,
      x.e.streams i = some (s₀, h₀) ∧ s.localOpen = s₀.localOpen ∧ s.outbox = s₀.outbox :=
    fun i s h hs => ⟨s, h, hs, rfl, rfl⟩
  cases H with
  | ignore => exact D
  | challenge _ hs => exact D.same rfl (fun h => by simp [hs] at h) Nat.le.refl rfl rfl hsame
  | giveUp => exact D.shut _
  | hello => exact D.same rfl (fun _ => rfl) Nat.le.refl rfl rfl hsame
  | refuse => exact D.shut _
  | welcome => exact D.same rfl (fun _ => rfl) Nat.le.refl rfl rfl hsame
  | bye => exact D.shut _
  | pinged => exact D
  | opened _ _ hpar _ hlast => exact D.opened G hpar hlast
  | @framed v =>
    refine D.touch fun s' h' hy => ?_
    unfold Endpoint.seen at hy
    split at hy
    · obtain ⟨⟨s, h⟩, hs, heq⟩ := Option.map_eq_some_iff.mp hy
      cases heq
      exact ⟨s, h, hs, rfl, rfl⟩
    · cases hy
  | granted =>
    refine D.touch fun s' h' hy => ?_
    obtain ⟨⟨s, h⟩, hs, heq⟩ := Option.map_eq_some_iff.mp hy
    cases heq
    exact ⟨s, h, hs, rfl, rfl⟩

/-- What was returned to the application does not matter. -/
theorem Disciplined.records (D : Disciplined P x) (taken : StreamId → List Bytes)
    (polled : List StreamId) : Disciplined P { x with taken, polled } :=
  ⟨D.stage, D.known, D.opens, D.parity, D.queued, D.finished, D.unsent, D.early⟩

/-- Every step keeps the discipline. -/
theorem Disciplined.step (G : x.e.Good P) (H : Party.Alone P x x') (D : Disciplined P x) :
    Disciplined P x' := by
  obtain ⟨y, y', H⟩ := H
  cases H with
  | tau h => exact D.tau G h
  | emit h =>
    cases h with
    | emitPriority hp => exact D.emitPriority G hp
    | emitControl _ hc => exact D.emitControl G hc
    | emitData _ hi hs hb => exact D.emitData G hi hs hb rfl rfl
  | consume h _ => exact D.consume G h
  | accept h =>
    cases h with
    | send hi ho hsplit => exact D.send G hi ho hsplit ho rfl
  | take h =>
    cases h with
    | take hi =>
      refine Disciplined.records (x := { x with e := _ }) (D.take ?_ hi) _ _
      split
      · exact .inl rfl
      · exact .inr ⟨_, rfl⟩
  | polled h =>
    cases h with
    | polled =>
      refine Disciplined.records (x := { x with e := _ }) ?_ _ _
      exact D.same rfl id Nat.le.refl rfl rfl fun j s h hs => ⟨s, h, hs, rfl, rfl⟩

/-! ## The discipline of the wire -/

theorem disciplined_new (cfg : Config) (now : Instant) (P : Params) :
    Disciplined P ((Node.new (.new cfg now)).party []) := by
  obtain ⟨P₀, _, _, G⟩ := Connection.sound_new cfg now
  have hnew : (Connection.new cfg now).sched.control = [] ∧
      (Connection.new cfg now).streams = ∅ := by
    unfold Connection.new
    dsimp only
    split <;> exact ⟨rfl, rfl⟩
  have hall : ((Node.new (.new cfg now)).party []).wire ++
      ((Node.new (.new cfg now)).party []).e.control = [] := hnew.1
  have hstreams : ∀ i, (Connection.new cfg now).core.streams i = none := fun i => by
    simp [Connection.core, hnew.2]
  have hnone : ∀ i s h, ((Node.new (.new cfg now)).party []).e.streams i ≠ some (s, h) :=
    fun i s h hs => by
      have hs : (Connection.new cfg now).core.streams i = some (s, h) := hs
      rw [hstreams i] at hs
      cases hs
  refine ⟨fun i _ => ⟨_, by rw [hall]; rfl, fun s h hs => absurd hs (hnone i s h)⟩,
    fun f hf => (by cases hf), by rw [hall]; exact List.pairwise_singleton .., fun i hi => ?_,
    fun i s h hs => absurd hs (hnone i s h), fun i _ hf => ?_, fun _ _ => rfl, fun _ _ => rfl⟩
  · rw [hall] at hi
    cases hi
  · rw [hall] at hf
    cases hf

/-- `fs` are frames one side may emit: each stream follows the grammar, OPEN ids of the side's parity
increase, and FIN comes after the payloads of every accepted message. -/
structure WireDiscipline (server : Bool) (P : Params) (sent : StreamId → List Bytes)
    (fs : List Frame) : Prop where
  grammar : ∀ id, id ≠ 0 →
    (Automaton.run Stage.step (.start server id) (frameTypes id fs)).isSome = true
  increasing : (openIds fs).Pairwise (· < ·)
  parity : ∀ id ∈ openIds fs, (id % 2 == 1) = !server
  complete : ∀ id, id ≠ 0 → .fin ∈ frameTypes id fs → Carries P id (dataPayloads id fs) (sent id)

theorem Disciplined.wireDiscipline (D : Disciplined P x) :
    WireDiscipline x.e.server P x.sent x.wire := by
  have hsub : openIds x.wire <+: openIds (x.wire ++ x.e.control) := by
    rw [openIds_append]
    exact List.prefix_append ..
  refine ⟨fun i hi => ?_, ?_, fun i hi => D.parity i (hsub.subset hi), fun i hi hf => ?_⟩
  · obtain ⟨σ, hrun, _⟩ := D.stage i hi
    rw [frameTypes_append] at hrun
    obtain ⟨τ, hτ, _⟩ := Automaton.run_append_eq_some.mp hrun
    exact Option.isSome_iff_exists.mpr ⟨τ, hτ⟩
  · exact (List.pairwise_append.mp D.opens).1.sublist hsub.sublist
  · refine D.finished i hi ?_
    rw [frameTypes_append]
    exact List.mem_append_left _ hf

theorem Disciplined.server_step {b : Bool} (H : Party.Alone P x x') (h : x.e.server = b) :
    x'.e.server = b := by
  obtain ⟨l, H⟩ := H.endpoint
  generalize x'.e = e' at H
  subst h
  cases H <;> rfl

end

end TunnelWeaver.Mux
