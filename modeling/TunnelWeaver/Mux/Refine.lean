import TunnelWeaver.Mux.Duplex

/-! `Connection` refines `Endpoint`: `Connection.core` forgets what the peer cannot see, and every
method is one `Endpoint.Act` of the core or a sequence of silent steps. -/

namespace TunnelWeaver.Mux

namespace Endpoint
variable [ThirdParty] {P : Params} {e e' e'' : Endpoint} {l : Label}

/-- Steps that show neither on the wire nor to the application. -/
def Silent (P : Params) : Endpoint → Endpoint → Prop :=
  Relation.ReflTransGen fun e e' => Step P e .tau e'

/-- One visible step, and silent ones after it. -/
def Act (P : Params) (e : Endpoint) (l : Label) (e' : Endpoint) : Prop :=
  ∃ e₁, Step P e l e₁ ∧ Silent P e₁ e'

theorem Step.silent (H : Step P e .tau e') : Silent P e e' := .single H

theorem Step.act (H : Step P e l e') : Act P e l e' := ⟨e', H, .refl⟩

theorem Good.silent (hP : P.InRange) (G : e.Good P) (H : Silent P e e') : e'.Good P := by
  induction H with
  | refl => exact G
  | tail _ h ih => exact ih.step hP h

theorem Good.act (hP : P.InRange) (G : e.Good P) (H : Act P e l e') : e'.Good P :=
  let ⟨_, h, hs⟩ := H
  (G.step hP h).silent hP hs

end Endpoint

theorem Duplex.silent [ThirdParty] {P : Params} {x y : Party} {e : Endpoint} (D : Duplex P x y)
    (hP : P.InRange) (H : Endpoint.Silent P x.e e) : Duplex P { x with e } y := by
  induction H with
  | refl => exact D
  | tail _ h ih => exact ih.tau hP h

/-! ## The core of a connection -/

def Event.finishedId : Event → Option StreamId
  | .finished i => some i
  | _ => none

namespace Connection

def core (c : Connection) : Endpoint where
  server := c.cfg.role.isServer
  hs := c.hs
  closed := c.closed.isSome
  next := c.nextStreamId
  lastPeer := c.lastPeerStreamId
  prio := c.priorityOut
  control := c.sched.control
  streams i := (c.streams.lookup i).map fun s => (s.sendHalf, s.recvHalf)
  finished := c.events.filterMap Event.finishedId

variable {c c' : Connection} {id : StreamId} {s : Stream}

theorem known_iff : c.known id = true ↔ c.core.Known id := by
  unfold known Endpoint.Known peerOpensOdd
  change (if ((id % 2 == 1) == c.core.server) = true then decide (id ≤ c.core.lastPeer)
    else decide (id < c.core.next)) = true ↔ _
  by_cases h : (id % 2 == 1) = c.core.server <;> simp [h]

theorem core_streams (h : c.streams.lookup id = some s) :
    c.core.streams id = some (s.sendHalf, s.recvHalf) := by simp [core, h]

theorem core_streams_none (h : c.streams.lookup id = none) : c.core.streams id = none := by
  simp [core, h]

@[simp] theorem core_setStream : (c.setStream id s).core =
    c.core.set id (some (s.sendHalf, s.recvHalf)) := by
  simp only [core, setStream, Endpoint.set, Endpoint.mk.injEq, true_and, and_true]
  funext i
  rw [Map.lookup_insert_ite, Function.update_apply]
  split <;> rfl

@[simp] theorem core_pushControl (f : Frame) : (c.pushControl f).core = c.core.push [f] := rfl

theorem core_pushEvent {ev : Event} (h : ev.finishedId = none) : (c.pushEvent ev).core = c.core := by
  simp [core, pushEvent, h]

@[simp] theorem core_pushEvent_finished :
    (c.pushEvent (.finished id)).core = { c.core with finished := c.core.finished ++ [id] } := by
  simp [core, pushEvent, Event.finishedId]

/-- The byte sink sees every report and changes nothing else. -/
theorem report_eq (id : StreamId) (a b : Nat) : ∃ reports, c.report id a b = { c with reports } := by
  unfold report
  split
  · exact ⟨_, rfl⟩
  · exact ⟨c.reports, rfl⟩

@[simp] theorem core_report (a b : Nat) : (c.report id a b).core = c.core := by
  obtain ⟨r, h⟩ := report_eq (c := c) id a b
  rw [h]
  rfl

theorem core_dropStream (h : c.streams.lookup id = some s) :
    (c.dropStream id).core = c.core.set id none := by
  simp only [dropStream, h, core, Endpoint.set, Endpoint.mk.injEq, true_and, and_true,
    SchedTree.control_removeStream]
  funext i
  rw [Map.lookup_erase_ite, Function.update_apply]
  split <;> rfl

variable [ThirdParty] {P : Params}

/-- What holds of a connection beyond what its core shows: `P` are the parameters in force, and the
scheduler picks only streams whose OPEN was sent. -/
structure Wf (P : Params) (c : Connection) : Prop where
  params : c.hs = .done → c.params = some P
  announced : ∀ v p r, c.cfg.role = .server v p r → p = P
  keyId : c.hs = .helloSent → c.keyId.isSome
  timers : c.timers.authenticated = true → c.hs = .done
  active : ∀ i, c.sched.Active i → c.core.Known i ∧
    ∀ s, c.streams.lookup i = some s → s.openSent = true

omit [ThirdParty] in
theorem Wf.paramsInForce (W : Wf P c) (h : c.hs = .done) : c.paramsInForce = P := by
  simp [Connection.paramsInForce, W.params h]

omit [ThirdParty] in
/-- The handshake, the configuration and the timers stay. -/
theorem Wf.of (W : Wf P c) (hhs : c'.hs = c.hs) (hp : c'.params = c.params) (hcfg : c'.cfg = c.cfg)
    (hk : c'.keyId = c.keyId)
    (ht : c'.timers.authenticated = true → c.timers.authenticated = true)
    (ha : ∀ i, c'.sched.Active i → c'.core.Known i ∧
      ∀ s, c'.streams.lookup i = some s → s.openSent = true) : Wf P c' where
  params := by rw [hhs, hp]; exact W.params
  announced := by rw [hcfg]; exact W.announced
  keyId := by rw [hhs, hk]; exact W.keyId
  timers h := by rw [hhs]; exact W.timers (ht h)
  active := ha

/-! ## Streams going away -/

omit [ThirdParty] in
theorem Wf.dropStream (W : Wf P c) : Wf P (c.dropStream id) := by
  unfold Connection.dropStream
  split
  · exact W
  · refine W.of rfl rfl rfl rfl (fun h => h) fun i hi => ?_
    obtain ⟨hk, ho⟩ := W.active i hi.of_removeStream
    refine ⟨hk, fun s hs => ho s ?_⟩
    rw [Map.lookup_erase_ite] at hs
    split at hs
    · cases hs
    · exact hs

omit [ThirdParty] in
theorem Wf.pushEvent (W : Wf P c) (ev : Event) : Wf P (c.pushEvent ev) :=
  W.of rfl rfl rfl rfl (fun h => h) W.active

theorem dropStream_silent : Endpoint.Silent P c.core (c.dropStream id).core := by
  cases h : c.streams.lookup id with
  | none =>
    rw [Connection.dropStream, h]
    exact .refl
  | some s =>
    rw [core_dropStream h]
    exact (Endpoint.Step.drop (core_streams h)).silent

theorem maybeForget_silent : Endpoint.Silent P c.core (c.maybeForget id).core := by
  unfold maybeForget
  split
  · exact .refl
  · split
    · exact dropStream_silent
    · exact .refl

omit [ThirdParty] in
theorem Wf.maybeForget (W : Wf P c) : Wf P (c.maybeForget id) := by
  unfold Connection.maybeForget
  split
  · exact W
  · split
    · exact W.dropStream
    · exact W

/-- The peer's FIN was read and the inbox is empty. -/
theorem finishedStream_silent (h : c.streams.lookup id = some s) (ho : s.remoteOpen = false)
    (hi : s.inbox = []) : Endpoint.Silent P c.core (c.finishedStream id).core := by
  have hstep : Endpoint.Step P c.core .tau (c.pushEvent (.finished id)).core := by
    rw [core_pushEvent_finished]
    exact .finished (core_streams h) ho hi
  exact .head hstep maybeForget_silent

omit [ThirdParty] in
theorem Wf.finishedStream (W : Wf P c) : Wf P (c.finishedStream id) := (W.pushEvent _).maybeForget

/-! ## Close -/

omit [ThirdParty] in
theorem core_closeStream : (c.closeStream id).core = c.core.set id none := by
  rw [closeStream, core_pushEvent rfl]
  cases h : c.streams.lookup id with
  | none =>
    rw [dropStream, h]
    simp only [Endpoint.set, core, Endpoint.mk.injEq, true_and, and_true]
    exact (Function.update_eq_self_iff.mpr (by simp [h])).symm
  | some s => exact core_dropStream h

omit [ThirdParty] in
theorem core_foldl_closeStream (ids : List StreamId) : (ids.foldl closeStream c).core =
    { c.core with streams := fun i => if i ∈ ids then none else c.core.streams i } := by
  induction ids generalizing c with
  | nil => simp
  | cons id ids ih =>
    rw [List.foldl_cons, ih, core_closeStream]
    simp only [Endpoint.set, Endpoint.mk.injEq, true_and, and_true, List.mem_cons]
    funext i
    by_cases hi : i ∈ ids
    · simp [hi]
    · by_cases h : i = id
      · subst h; simp
      · simp [hi, h]

omit [ThirdParty] in
/-- Closing the streams of a connection touches its streams, scheduler and events only. -/
theorem foldl_closeStream_frame (ids : List StreamId) : ∃ streams sched events,
    ids.foldl closeStream c = { c with streams, sched, events } := by
  induction ids generalizing c with
  | nil => exact ⟨_, _, _, rfl⟩
  | cons id ids ih =>
    have hone : ∃ streams sched events, c.closeStream id = { c with streams, sched, events } := by
      unfold closeStream dropStream
      split <;> exact ⟨_, _, _, rfl⟩
    obtain ⟨st, sc, ev, h⟩ := hone
    obtain ⟨st', sc', ev', h'⟩ := ih (c := c.closeStream id)
    exact ⟨st', sc', ev', by rw [List.foldl_cons, h', h]⟩

omit [ThirdParty] in
theorem Wf.foldl_closeStream (W : Wf P c) (ids : List StreamId) :
    Wf P (ids.foldl Connection.closeStream c) := by
  induction ids generalizing c with
  | nil => exact W
  | cons id ids ih => exact ih (W.dropStream.pushEvent _)

omit [ThirdParty] in
theorem mem_sortedIds (h : c.streams.lookup id = some s) : id ∈ c.sortedIds := by
  rw [sortedIds, List.mem_insertionSort, ← AList.mem_keys, ← AList.lookup_isSome, h]
  rfl

theorem core_closeInternal {reason : CloseReason} {sendGoaway : Bool} (h : c.closed = none) :
    (c.closeInternal reason sendGoaway).core =
      c.core.shut (c.dropQueues reason sendGoaway).priorityOut := by
  unfold closeInternal
  rw [if_neg (by simp [h]), core_pushEvent rfl]
  generalize hc₁ : c.dropQueues reason sendGoaway = c₁
  have hcore : c₁.core = { c.core with control := [], prio := c₁.priorityOut } := by
    subst hc₁
    rfl
  have hfold := core_foldl_closeStream (c := c₁) c₁.sortedIds
  have hnone : (fun i => if i ∈ c₁.sortedIds then none else c₁.core.streams i) = fun _ => none := by
    funext i
    split
    · rfl
    · rename_i hi
      cases hl : c₁.streams.lookup i with
      | none => exact core_streams_none hl
      | some s => exact absurd (mem_sortedIds hl) hi
  rw [hnone] at hfold
  rw [Endpoint.shut,
    show Connection.core _ = { (List.foldl closeStream c₁ c₁.sortedIds).core with closed := true }
      from rfl, hfold, hcore]

theorem Wf.closeInternal (W : Wf P c) {reason : CloseReason} {sendGoaway : Bool} :
    Wf P (c.closeInternal reason sendGoaway) := by
  unfold Connection.closeInternal
  split
  · exact W
  · have W₁ : Wf P (c.dropQueues reason sendGoaway) := W.of rfl rfl rfl rfl (fun h => h) W.active
    have W₂ := W₁.foldl_closeStream (c.dropQueues reason sendGoaway).sortedIds
    dsimp only
    generalize List.foldl _ _ _ = c₂ at W₂ ⊢
    have W₃ : Wf P { c₂ with timers := c₂.timers.clear, closed := some reason } :=
      W₂.of rfl rfl rfl rfl (fun h => by cases h) W₂.active
    exact W₃.pushEvent _

/-- A connection that closes, telling the peer, whatever else it forgot before. -/
theorem closeInternal_silent {c₀ : Connection} {reason : CloseReason} (h : c.closed = none)
    (h₀ : c₀.closed = none) (hs : c.core.server = c₀.core.server) (hhs : c.hs = c₀.hs)
    (hn : c.nextStreamId = c₀.nextStreamId) (hl : c.lastPeerStreamId = c₀.lastPeerStreamId)
    (hf : c.core.finished = c₀.core.finished) :
    Endpoint.Silent P c₀.core (c.closeInternal reason true).core := by
  rw [core_closeInternal h]
  have hstep : Endpoint.Step P c₀.core .tau
      (c₀.core.shut [⟨0, .goaway, ThirdParty.goaway.encode reason⟩]) :=
    .close (by simp [core, h₀])
  convert hstep.silent using 1
  simp only [Endpoint.shut, Endpoint.mk.injEq, true_and]
  exact ⟨hs, hhs, hn, hl, rfl, hf⟩

end Connection

end TunnelWeaver.Mux
