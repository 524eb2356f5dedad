import TunnelWeaver.Mux.Channel

/-! An endpoint as its peer sees it: handshake state, id counters, the two frame queues and the
halves of every tracked stream. `Endpoint.Step` is what it can do; scheduling, classes, timers and
reports are abstracted away. `Endpoint.Good` holds of it whatever the peer does. -/

namespace TunnelWeaver.Mux

/-! ## Frames by stream -/

/-- The frame types that move a receiver's view of a stream. -/
def FrameType.isStream : FrameType → Bool
  | .open | .data | .fin | .rst => true
  | _ => false

/-- The frame types of the priority queue. -/
def FrameType.isPriority : FrameType → Bool
  | .challenge | .hello | .welcome | .reject | .goaway => true
  | _ => false

theorem FrameType.isStream_of_isPriority {t : FrameType} (h : t.isPriority = true) :
    t.isStream = false := by
  cases t <;> cases h <;> rfl

theorem FrameType.ne_of_isPriority {t : FrameType} (h : t.isPriority = true) :
    t ≠ .open ∧ t ≠ .windowUpdate ∧ t ≠ .data := by
  cases t <;> cases h <;> simp

def streamFrames (i : StreamId) (fs : List Frame) : List Frame :=
  fs.filter fun f => f.streamId = i ∧ f.frameType.isStream = true

@[simp] theorem streamFrames_nil (i : StreamId) : streamFrames i [] = [] := rfl

@[simp] theorem streamFrames_append (i : StreamId) (fs gs : List Frame) :
    streamFrames i (fs ++ gs) = streamFrames i fs ++ streamFrames i gs := List.filter_append ..

theorem streamFrames_cons (i : StreamId) (f : Frame) (fs : List Frame) :
    streamFrames i (f :: fs) =
      if f.streamId = i ∧ f.frameType.isStream = true then f :: streamFrames i fs
      else streamFrames i fs := by
  simp [streamFrames, List.filter_cons]

theorem streamFrames_cons_self {f : Frame} (h : f.frameType.isStream = true) (fs : List Frame) :
    streamFrames f.streamId (f :: fs) = f :: streamFrames f.streamId fs := by
  simp [streamFrames_cons, h]

theorem streamFrames_cons_ne {i : StreamId} {f : Frame} (h : f.streamId ≠ i) (fs : List Frame) :
    streamFrames i (f :: fs) = streamFrames i fs := by
  simp [streamFrames_cons, h]

theorem streamFrames_cons_other {i : StreamId} {f : Frame} (h : f.frameType.isStream = false)
    (fs : List Frame) : streamFrames i (f :: fs) = streamFrames i fs := by
  simp [streamFrames_cons, h]

/-- The ids opened by a list of frames. -/
def openIds (fs : List Frame) : List StreamId :=
  (fs.filter fun f => f.frameType = .open).map (·.streamId)

@[simp] theorem openIds_nil : openIds [] = [] := rfl

@[simp] theorem openIds_append (fs gs : List Frame) : openIds (fs ++ gs) = openIds fs ++ openIds gs := by
  simp [openIds]

theorem openIds_cons_open {f : Frame} (h : f.frameType = .open) (fs : List Frame) :
    openIds (f :: fs) = f.streamId :: openIds fs := by
  simp [openIds, h]

theorem openIds_cons_ne {f : Frame} (h : f.frameType ≠ .open) (fs : List Frame) :
    openIds (f :: fs) = openIds fs := by
  simp [openIds, h]

theorem mem_openIds {f : Frame} {fs : List Frame} (hf : f ∈ fs) (h : f.frameType = .open) :
    f.streamId ∈ openIds fs :=
  List.mem_map.mpr ⟨f, by simp [hf, h], rfl⟩

section Frames
variable [ThirdParty]

/-- The credit a WINDOW_UPDATE frame gives to stream `i`. -/
def Frame.grant (i : StreamId) (f : Frame) : Nat :=
  if f.streamId = i ∧ f.frameType = .windowUpdate then
    match ThirdParty.windowUpdate.decode f.payload with
    | some wu => wu.credit.toNat
    | none => 0
  else 0

def grants (i : StreamId) (fs : List Frame) : Nat := (fs.map (Frame.grant i)).sum

@[simp] theorem grants_nil (i : StreamId) : grants i [] = 0 := rfl

@[simp] theorem grants_cons (i : StreamId) (f : Frame) (fs : List Frame) :
    grants i (f :: fs) = f.grant i + grants i fs := by simp [grants]

@[simp] theorem grants_append (i : StreamId) (fs gs : List Frame) :
    grants i (fs ++ gs) = grants i fs + grants i gs := by simp [grants]

theorem Frame.grant_of_type {f : Frame} (h : f.frameType ≠ .windowUpdate) (i : StreamId) :
    f.grant i = 0 := by simp [grant, h]

theorem Frame.grant_of_ne {f : Frame} {i : StreamId} (h : f.streamId ≠ i) : f.grant i = 0 := by
  simp [grant, h]

theorem grants_eq_zero {i : StreamId} {fs : List Frame}
    (h : ∀ f ∈ fs, f.frameType = .windowUpdate → f.streamId ≠ i) : grants i fs = 0 := by
  induction fs with
  | nil => rfl
  | cons f fs ih =>
    rw [grants_cons, ih fun g hg => h g (by simp [hg])]
    by_cases ht : f.frameType = .windowUpdate
    · exact Frame.grant_of_ne (h f (by simp) ht)
    · exact Frame.grant_of_type ht i

/-- A frame of an authenticated connection that neither opens nor closes it. -/
inductive Ordinary (f : Frame) : Prop where
  | conn : f.streamId = 0 → f.frameType = .ping ∨ f.frameType = .pong →
    (∃ p, ThirdParty.ping.decode f.payload = some p) → Ordinary f
  | stream : f.streamId ≠ 0 → f.frameType.isStream = true ∨ f.frameType = .windowUpdate →
    Ordinary f

end Frames

/-! ## Endpoints -/

structure Endpoint where
  server : Bool
  hs : HandshakeState
  closed : Bool
  next : Nat
  lastPeer : Nat
  prio : List Frame
  control : List Frame
  streams : StreamId → Option (SendHalf × RecvHalf)
  finished : List StreamId

namespace Endpoint

/-- The id is one that legitimately existed: opened by the peer, or by this side. -/
def Known (e : Endpoint) (i : Nat) : Prop :=
  if (i % 2 == 1) = e.server then i ≤ e.lastPeer else i < e.next

instance (e : Endpoint) (i : StreamId) : Decidable (e.Known i) := by
  unfold Known; infer_instance

def view (e : Endpoint) (i : StreamId) : View :=
  match e.streams i with
  | some (_, h) => .live h
  | none => if e.Known i then .gone else .unknown

def sendHalf (e : Endpoint) (i : StreamId) : Option SendHalf := (e.streams i).map (·.1)

def set (e : Endpoint) (i : StreamId) (x : Option (SendHalf × RecvHalf)) : Endpoint :=
  { e with streams := Function.update e.streams i x }

def push (e : Endpoint) (fs : List Frame) : Endpoint := { e with control := e.control ++ fs }

/-- Everything a closing endpoint forgets. -/
def shut (e : Endpoint) (prio : List Frame) : Endpoint :=
  { e with closed := true, prio, control := [], streams := fun _ => none }

structure Ready (e : Endpoint) : Prop where
  done : e.hs = .done
  isOpen : e.closed = false

/-- What happened at a step, as far as the peer or the application can tell. -/
inductive Label where
  | tau
  | emit (f : Frame)
  | consume (f : Frame)
  | accept (i : StreamId) (m : Bytes)
  | take (i : StreamId) (m : Bytes)
  | polled (i : StreamId)

/-- Taking a message of `w` wire bytes leaves `c` bytes counted towards the next update and returns
`cr` bytes now. -/
inductive Consumes (h : RecvHalf) (w : Nat) : Nat → Nat → Prop where
  | closed : h.remoteOpen = false → Consumes h w h.recv.consumedSinceUpdate 0
  | hold : h.remoteOpen = true → h.recv.consumedSinceUpdate + w < h.recv.window / 2 →
    Consumes h w (h.recv.consumedSinceUpdate + w) 0
  | update : h.remoteOpen = true → h.recv.window / 2 ≤ h.recv.consumedSinceUpdate + w →
    Consumes h w 0 (h.recv.consumedSinceUpdate + w)

variable [ThirdParty]

def grantFrame (i : StreamId) (credit : Nat) : Frame :=
  ⟨i, .windowUpdate, ThirdParty.windowUpdate.encode ⟨UInt32.ofNat credit⟩⟩

/-- The halves of stream `i` after its view became `v`. -/
def seen (e : Endpoint) (i : StreamId) (v : View) : Option (SendHalf × RecvHalf) :=
  match v with
  | .live h => (e.streams i).map fun x => (x.1, h)
  | _ => none

/-- One thing an endpoint does. `P` are the negotiated parameters. -/
inductive Step (P : Params) (e : Endpoint) : Label → Endpoint → Prop where
  | emitPriority {f rest} : e.prio = f :: rest → Step P e (.emit f) { e with prio := rest }
  | emitControl {f rest} : e.prio = [] → e.control = f :: rest →
    Step P e (.emit f) { e with
      control := rest
      streams := Function.update e.streams f.streamId ((e.streams f.streamId).map fun x =>
        ({ x.1 with openSent := x.1.openSent || decide (f.frameType = .open) }, x.2)) }
  | emitData {i s h p rest} : e.prio = [] → e.streams i = some (s, h) → s.openSent = true →
    s.outbox = p :: rest →
    Step P e (.emit ⟨i, .data, p⟩) ((e.set i (some ({ s with
      outbox := rest
      outboxBytes := s.outboxBytes - asU32 p.length
      credit := s.credit - asU32 p.length }, h))).push
        (if rest = [] ∧ s.localOpen = false then [finFrame i] else []))
  | open {cls} : e.Ready → cls ≠ Class.control → e.next + 2 ≤ u32Max →
    Step P e .tau { (e.set e.next (some (.fresh P.initialWindow.toNat false,
      .fresh P.initialWindow.toNat))).push [⟨e.next, .open, ThirdParty.cls.encode cls⟩] with
        next := e.next + 2 }
  | send {i s h m ps} : e.streams i = some (s, h) → s.localOpen = true → Splits P i ps m →
    (∀ p ∈ ps, p.length < 2 ^ 32) → wireBytes ps + s.outboxBytes ≤ s.credit →
    m.length ≤ P.maxMessage.toNat →
    Step P e (.accept i m) (e.set i (some ({ s with
      outbox := s.outbox ++ ps, outboxBytes := s.outboxBytes + wireBytes ps }, h)))
  | finish {i s h} : e.streams i = some (s, h) → s.localOpen = true →
    Step P e .tau ((e.set i (some ({ s with localOpen := false }, h))).push
      (if s.outbox = [] then [finFrame i] else []))
  | reset {i s h code} : e.streams i = some (s, h) →
    Step P e .tau ((e.set i none).push [⟨i, .rst, ThirdParty.rst.encode ⟨code⟩⟩])
  | drop {i s h} : e.streams i = some (s, h) → Step P e .tau (e.set i none)
  | take {i s h m w rest c cr} : e.streams i = some (s, h) → h.inbox = (m, w) :: rest →
    Consumes h w c cr →
    Step P e (.take i m) ((e.set i (some (s, h.pop c cr))).push
      (if cr = 0 then [] else [grantFrame i cr]))
  | finished {i s h} : e.streams i = some (s, h) → h.remoteOpen = false → h.inbox = [] →
    Step P e .tau { e with finished := e.finished ++ [i] }
  | polled {i rest} : e.finished = i :: rest → Step P e (.polled i) { e with finished := rest }
  | conn {f} : e.Ready → f.streamId = 0 → f.frameType = .ping ∨ f.frameType = .pong →
    (∃ p, ThirdParty.ping.decode f.payload = some p) → Step P e .tau (e.push [f])
  | close {r} : e.closed = false →
    Step P e .tau (e.shut [⟨0, .goaway, ThirdParty.goaway.encode r⟩])
  | ignore {f} : e.closed = true → Step P e (.consume f) e
  | challenge {f hello} : e.closed = false → e.hs = .awaitChallenge → f.frameType = .challenge →
    Step P e (.consume f) { e with
      hs := .helloSent, prio := e.prio ++ [⟨0, .hello, ThirdParty.hello.encode hello⟩] }
  | giveUp {f r} : e.closed = false → e.hs = .awaitChallenge → f.frameType = .challenge →
    Step P e (.consume f) (e.shut [⟨0, .goaway, ThirdParty.goaway.encode r⟩])
  | hello {f version} : e.closed = false → e.hs = .challengeSent → f.frameType = .hello →
    acceptVersion maxVersion version = true →
    Step P e (.consume f) { e with
      hs := .done, prio := e.prio ++ [⟨0, .welcome, ThirdParty.welcome.encode ⟨version, P⟩⟩] }
  | refuse {f r} : e.closed = false → e.hs = .challengeSent → f.frameType = .hello →
    Step P e (.consume f) (e.shut (e.prio ++ [⟨0, .reject, ThirdParty.reject.encode r⟩]))
  | welcome {f} : e.closed = false → e.hs = .helloSent → f.frameType = .welcome →
    Step P e (.consume f) { e with hs := .done }
  | bye {f} : e.closed = false → f.frameType = .goaway ∨ f.frameType = .reject →
    Step P e (.consume f) (e.shut e.prio)
  | pinged {f} : e.Ready → f.frameType = .ping ∨ f.frameType = .pong → Step P e (.consume f) e
  | opened {f} : e.Ready → f.frameType = .open → (f.streamId % 2 == 1) = e.server →
    f.streamId < 2 ^ 32 → e.lastPeer < f.streamId →
    Step P e (.consume f) { e.set f.streamId (some (.fresh P.initialWindow.toNat true,
      .fresh P.initialWindow.toNat)) with lastPeer := f.streamId }
  | framed {f v} : e.Ready → f.frameType.isStream = true → f.frameType ≠ .open →
    View.step P e.server (e.view f.streamId) f = some v →
    Step P e (.consume f) (e.set f.streamId (e.seen f.streamId v))
  | granted {f wu} : e.Ready → f.frameType = .windowUpdate →
    ThirdParty.windowUpdate.decode f.payload = some wu →
    Step P e (.consume f) (e.set f.streamId ((e.streams f.streamId).map fun x =>
      ({ x.1 with credit := satAdd32 x.1.credit wu.credit.toNat }, x.2)))

end Endpoint

/-! ## Local invariants -/

namespace RecvHalf

variable {window : Nat} {h h' : RecvHalf}

theorem Conserved.onData {P : Params} {n : Nat} {data : Bytes} {more : Bool}
    (C : h.Conserved window) (hw : window ≤ u32Max) (H : h.onData P n data more = some h') :
    h'.Conserved window := by
  obtain ⟨ho, hn, _, rfl⟩ := onData_eq_some.mp H
  have htotal := C.total ho
  have hle := C.remaining_le
  have hsat : satAdd32 h.partialWire n = h.partialWire + n := by
    simp only [satAdd32, u32Max] at hw ⊢
    omega
  cases more
  · refine ⟨C.window_eq, ?_, C.consumed_lt, fun _ => ?_⟩ <;>
      simp only [deliver, Bool.false_eq_true, if_false, List.map_append, List.sum_append,
        List.map_cons, List.map_nil, List.sum_cons, List.sum_nil, hsat] <;> omega
  · refine ⟨C.window_eq, ?_, C.consumed_lt, fun _ => ?_⟩ <;>
      simp only [deliver, if_true, hsat] <;> omega

theorem Conserved.onFin (C : h.Conserved window) (H : h.onFin = some h') :
    h'.Conserved window := by
  obtain ⟨_, _, rfl⟩ := onFin_eq_some.mp H
  exact ⟨C.window_eq, C.remaining_le, C.consumed_lt, (by rintro ⟨⟩)⟩

theorem Conserved.pop {m : Bytes} {w c cr : Nat} {rest : List (Bytes × Nat)}
    (C : h.Conserved window) (hi : h.inbox = (m, w) :: rest) (H : Endpoint.Consumes h w c cr) :
    (h.pop c cr).Conserved window ∧ cr ≤ window := by
  have htotal := C.total
  have hw := C.window_eq
  have hc := C.consumed_lt
  have hr := C.remaining_le
  simp only [hi, List.map_cons, List.sum_cons] at htotal
  cases H with
  | closed ho =>
    refine ⟨⟨hw, by simpa [RecvHalf.pop] using hr, hc, fun h => ?_⟩, by omega⟩
    simp [RecvHalf.pop, ho] at h
  | hold ho hlt =>
    have htotal := htotal ho
    refine ⟨⟨hw, by simpa [RecvHalf.pop] using hr, by simpa [RecvHalf.pop, hw] using hlt,
      fun _ => ?_⟩, by omega⟩
    simp only [RecvHalf.pop, hi, List.tail_cons]
    omega
  | update ho hge =>
    have htotal := htotal ho
    refine ⟨⟨hw, ?_, ?_, fun _ => ?_⟩, by omega⟩ <;>
      simp only [RecvHalf.pop, hi, List.tail_cons] <;> omega

end RecvHalf

namespace Endpoint

/-- What holds of a tracked stream; `queue` are its frames in the control queue. -/
structure StreamGood (P : Params) (queue : List Frame) (s : SendHalf) (h : RecvHalf) : Prop where
  bytes : s.outboxBytes = wireBytes s.outbox
  outbox_le : s.outboxBytes ≤ s.credit
  credit_le : s.credit ≤ u32Max
  small : ∀ p ∈ s.outbox, p.length < 2 ^ 32
  sent : s.localOpen = true ∨ s.outbox ≠ [] → s.openSent = true → queue = []
  unsent : s.localOpen = true ∨ s.outbox ≠ [] → s.openSent = false →
    ∃ f, f.frameType = .open ∧ queue = [f]
  conserved : h.Conserved P.initialWindow.toNat

variable [ThirdParty]

/-- The invariant of one endpoint. -/
structure Good (P : Params) (e : Endpoint) : Prop where
  role : e.hs = .done ∨ if e.server then e.hs = .challengeSent else
    e.hs = .awaitChallenge ∨ e.hs = .helloSent
  idle : ¬e.Ready → (∀ i, e.streams i = none) ∧ e.control = []
  prio : ∀ f ∈ e.prio, f.streamId = 0 ∧ f.frameType.isPriority = true
  control : ∀ f ∈ e.control, Ordinary f ∧ f.frameType ≠ .data ∧ e.Known f.streamId
  streams : ∀ i s h, e.streams i = some (s, h) →
    i ≠ 0 ∧ e.Known i ∧ StreamGood P (streamFrames i e.control) s h
  next_pos : 0 < e.next
  next_parity : (e.next % 2 == 1) = !e.server
  next_le : e.next ≤ u32Max
  lastPeer_le : e.lastPeer ≤ u32Max

variable {P : Params} {e e' : Endpoint} {i : Nat} {s : SendHalf} {h : RecvHalf}

omit [ThirdParty] in
theorem Known.mono (hs : e'.server = e.server) (hn : e.next ≤ e'.next)
    (hl : e.lastPeer ≤ e'.lastPeer) (h : e.Known i) : e'.Known i := by
  unfold Known at *
  rw [hs]
  split at h <;> rename_i hc <;> simp only [hc, if_true, if_false] <;> omega

theorem Good.known_lt (G : e.Good P) (h : e.Known i) : i < 2 ^ 32 := by
  have := G.next_le
  have := G.lastPeer_le
  unfold Known at h
  simp only [u32Max] at *
  split at h <;> omega

theorem Good.known_zero (G : e.Good P) : e.Known 0 := by
  have := G.next_pos
  unfold Known
  split <;> omega

theorem Good.not_known_next (G : e.Good P) : ¬e.Known e.next := by
  unfold Known
  rw [G.next_parity]
  cases e.server <;> simp

theorem Good.known_of_next (G : e.Good P) (hs : e'.server = e.server)
    (hn : e'.next = e.next + 2) (hl : e'.lastPeer = e.lastPeer) (hi : i ≠ e.next) :
    e'.Known i ↔ e.Known i := by
  have hp := G.next_parity
  unfold Known
  rw [hs, hn, hl]
  by_cases hpar : (i % 2 == 1) = e.server
  · rw [if_pos hpar, if_pos hpar]
  · rw [if_neg hpar, if_neg hpar]
    have hmod : i % 2 = e.next % 2 := by
      rcases Nat.mod_two_eq_zero_or_one i with h | h <;>
        rcases Nat.mod_two_eq_zero_or_one e.next with h' | h' <;>
        cases hsrv : e.server <;> simp_all
    omega

theorem Good.ready (G : e.Good P) (h : e.streams i = some (s, h')) : e.Ready := by
  by_contra hr
  rw [(G.idle hr).1 i] at h
  cases h

theorem Good.ready_of_control (G : e.Good P) (h : e.control ≠ []) : e.Ready := by
  by_contra hr
  exact h (G.idle hr).2

omit [ThirdParty] in
theorem set_streams (j : StreamId) (x : Option (SendHalf × RecvHalf)) :
    (e.set i x).streams j = if j = i then x else e.streams j := Function.update_apply ..

/-- An authenticated open endpoint whose streams and control queue change. -/
theorem Good.update (G : e.Good P) (hr : e.Ready) {control : List Frame}
    {streams : StreamId → Option (SendHalf × RecvHalf)}
    (hcontrol : ∀ f ∈ control, Ordinary f ∧ f.frameType ≠ .data ∧ e.Known f.streamId)
    (hstreams : ∀ i s h, streams i = some (s, h) →
      i ≠ 0 ∧ e.Known i ∧ StreamGood P (streamFrames i control) s h) :
    Good P { e with control, streams } :=
  { G with
    idle := fun h => absurd ⟨hr.done, hr.isOpen⟩ h
    control := hcontrol
    streams := hstreams }

omit [ThirdParty] in
@[simp] theorem push_nil : e.push [] = e := by simp [push]

/-- Stream `i` changes and frames of it are queued. -/
theorem Good.setPush (G : e.Good P) (hr : e.Ready) {x : Option (SendHalf × RecvHalf)}
    (fs : List Frame)
    (hfs : ∀ f ∈ fs, f.streamId = i ∧ Ordinary f ∧ f.frameType ≠ .data ∧ e.Known i)
    (hx : ∀ s h, x = some (s, h) →
      i ≠ 0 ∧ e.Known i ∧ StreamGood P (streamFrames i (e.control ++ fs)) s h) :
    Good P ((e.set i x).push fs) := by
  refine G.update hr (fun f hf => ?_) fun j s h hj => ?_
  · rcases List.mem_append.mp hf with hf | hf
    · exact G.control f hf
    · obtain ⟨rfl, h⟩ := hfs f hf
      exact h
  · rw [set_streams] at hj
    split at hj
    · rename_i hji
      subst hji
      exact hx s h hj
    · rename_i hji
      obtain ⟨h0, hk, hg⟩ := G.streams j s h hj
      have hnil : streamFrames j fs = [] :=
        List.filter_eq_nil_iff.mpr fun f hf => by simp [(hfs f hf).1, Ne.symm hji]
      refine ⟨h0, hk, ?_⟩
      rw [streamFrames_append, hnil, List.append_nil]
      exact hg

theorem Good.setOnly (G : e.Good P) (hr : e.Ready) {x : Option (SendHalf × RecvHalf)}
    (hx : ∀ s h, x = some (s, h) →
      i ≠ 0 ∧ e.Known i ∧ StreamGood P (streamFrames i e.control) s h) :
    Good P (e.set i x) := by
  have := G.setPush (i := i) (x := x) hr [] (by simp) (by simpa using hx)
  rwa [push_nil] at this

/-- The id counters grow. -/
theorem Good.grow (G : e.Good P) {next lastPeer : Nat} (hn : e.next ≤ next)
    (hp : (next % 2 == 1) = !e.server) (hn' : next ≤ u32Max) (hl : e.lastPeer ≤ lastPeer)
    (hl' : lastPeer ≤ u32Max) : Good P { e with next, lastPeer } :=
  { G with
    idle := fun h => G.idle fun h' => h ⟨h'.done, h'.isOpen⟩
    control := fun f hf =>
      let ⟨h1, h2, h3⟩ := G.control f hf
      ⟨h1, h2, Known.mono (e := e) rfl hn hl h3⟩
    streams := fun i s h hi =>
      let ⟨h1, h2, h3⟩ := G.streams i s h hi
      ⟨h1, Known.mono (e := e) rfl hn hl h2, h3⟩
    next_pos := Nat.lt_of_lt_of_le G.next_pos hn
    next_parity := hp
    next_le := hn'
    lastPeer_le := hl' }

theorem Good.shut (G : e.Good P) {prio : List Frame}
    (hp : ∀ f ∈ prio, f.streamId = 0 ∧ f.frameType.isPriority = true) :
    Good P (e.shut prio) :=
  { G with
    idle := fun _ => ⟨fun _ => rfl, rfl⟩
    prio := hp
    control := by simp [Endpoint.shut]
    streams := (by rintro _ _ _ ⟨⟩) }

omit [ThirdParty] in
theorem fresh_streamGood (hP : P.InRange) {openSent : Bool} {queue : List Frame}
    (hq : openSent = true → queue = [])
    (hq' : openSent = false → ∃ f, f.frameType = .open ∧ queue = [f]) :
    StreamGood P queue (.fresh P.initialWindow.toNat openSent) (.fresh P.initialWindow.toNat) where
  bytes := rfl
  outbox_le := Nat.zero_le _
  credit_le := by
    have := P.initialWindow.toNat_lt
    simp only [SendHalf.fresh, u32Max]
    omega
  small := by simp [SendHalf.fresh]
  sent _ := hq
  unsent _ := hq'
  conserved := by
    refine RecvHalf.fresh_conserved ?_
    have h := UInt32.le_iff_toNat_le.mp hP.window_ge
    have hmin : minWindow.toNat = 65536 := by decide
    omega

/-- What a frame makes of a live half keeps its accounts. -/
theorem conserved_of_step {odd : Bool} {f : Frame} {h' : RecvHalf}
    (hc : h.Conserved P.initialWindow.toNat)
    (H : View.step P odd (.live h) f = some (.live h')) : h'.Conserved P.initialWindow.toNat := by
  have hw : P.initialWindow.toNat ≤ u32Max := by
    have := P.initialWindow.toNat_lt
    simp only [u32Max]
    omega
  unfold View.step at H
  cases ht : f.frameType <;> simp only [ht, reduceCtorEq] at H
  case data =>
    split at H
    · cases H
    · obtain ⟨h'', hd, heq⟩ := Option.map_eq_some_iff.mp H
      cases heq
      exact hc.onData hw hd
  case fin =>
    obtain ⟨h'', hd, heq⟩ := Option.map_eq_some_iff.mp H
    cases heq
    exact hc.onFin hd
  case rst =>
    obtain ⟨_, _, heq⟩ := Option.map_eq_some_iff.mp H
    cases heq

theorem finFrame_ordinary (hi : i ≠ 0) (hk : e.Known i) {f : Frame} {p : Prop} [Decidable p]
    (hf : f ∈ if p then [finFrame i] else []) :
    f.streamId = i ∧ Ordinary f ∧ f.frameType ≠ .data ∧ e.Known i := by
  split at hf
  · obtain rfl := List.mem_singleton.mp hf
    exact ⟨rfl, .stream hi (.inl rfl), (by rintro ⟨⟩), hk⟩
  · cases hf

theorem Good.emitControl (G : e.Good P) {f : Frame} {rest : List Frame}
    (hc : e.control = f :: rest) :
    Good P { e with
      control := rest
      streams := Function.update e.streams f.streamId ((e.streams f.streamId).map fun x =>
        ({ x.1 with openSent := x.1.openSent || decide (f.frameType = .open) }, x.2)) } := by
  refine G.update (G.ready_of_control (by simp [hc])) (fun g hg => G.control g (by simp [hc, hg]))
    fun j s h hj => ?_
  rw [Function.update_apply] at hj
  split at hj
  · rename_i hji
    subst hji
    obtain ⟨⟨s₀, h₀⟩, h₁, heq⟩ := Option.map_eq_some_iff.mp hj
    cases heq
    obtain ⟨h0, hk, hg⟩ := G.streams _ _ _ h₁
    rw [hc, streamFrames_cons] at hg
    refine ⟨h0, hk, hg.bytes, hg.outbox_le, hg.credit_le, hg.small, fun ho hs => ?_, fun ho hs => ?_,
      hg.conserved⟩
    · cases hs₀ : s₀.openSent with
      | true =>
        have := hg.sent ho hs₀
        split at this
        · cases this
        · exact this
      | false =>
        obtain ⟨g, _, hq⟩ := hg.unsent ho hs₀
        have ht : f.frameType = .open := by simpa [hs₀] using hs
        rw [if_pos ⟨rfl, by rw [ht]; rfl⟩] at hq
        exact (List.cons.inj hq).2
    · simp only [Bool.or_eq_false_iff, decide_eq_false_iff_not] at hs
      obtain ⟨g, hgt, hq⟩ := hg.unsent ho hs.1
      refine ⟨g, hgt, ?_⟩
      split at hq
      · rw [(List.cons.inj hq).1] at hs
        exact absurd hgt hs.2
      · exact hq
  · rename_i hji
    obtain ⟨h0, hk, hg⟩ := G.streams j s h hj
    rw [hc, streamFrames_cons_ne (Ne.symm hji)] at hg
    exact ⟨h0, hk, hg⟩

theorem Good.emitData (G : e.Good P) {p : Bytes} {rest : List Bytes}
    (hi : e.streams i = some (s, h)) (hs : s.openSent = true) (hp : s.outbox = p :: rest) :
    Good P ((e.set i (some ({ s with
      outbox := rest
      outboxBytes := s.outboxBytes - asU32 p.length
      credit := s.credit - asU32 p.length }, h))).push
        (if rest = [] ∧ s.localOpen = false then [finFrame i] else [])) := by
  obtain ⟨h0, hk, hg⟩ := G.streams i s h hi
  have hbytes := hg.bytes
  have hle := hg.outbox_le
  have hcr := hg.credit_le
  rw [hp, wireBytes_cons] at hbytes
  refine G.setPush (G.ready hi) _ (fun f hf => finFrame_ordinary h0 hk hf) fun s' h' heq => ?_
  cases heq
  refine ⟨h0, hk, by dsimp only; omega, by dsimp only; omega, by dsimp only; omega,
    fun q hq => hg.small q (by rw [hp]; exact List.mem_cons_of_mem _ hq), fun ho _ => ?_,
    fun _ hs' => (by simp [hs] at hs'), hg.conserved⟩
  rw [streamFrames_append, hg.sent (.inr (by simp [hp])) hs, List.nil_append, if_neg]
  · rfl
  · rintro ⟨h1, h2⟩
    simp [h1, h2] at ho

theorem Good.take (G : e.Good P) {m : Bytes} {w c cr : Nat} {rest : List (Bytes × Nat)}
    (hi : e.streams i = some (s, h)) (hin : h.inbox = (m, w) :: rest) (hc : Consumes h w c cr) :
    Good P ((e.set i (some (s, h.pop c cr))).push (if cr = 0 then [] else [grantFrame i cr])) := by
  obtain ⟨h0, hk, hg⟩ := G.streams i s h hi
  have hnil : streamFrames i (if cr = 0 then [] else [grantFrame i cr]) = [] := by
    split
    · rfl
    · exact streamFrames_cons_other rfl []
  refine G.setPush (G.ready hi) _ (fun f hf => ?_) fun s' h' heq => ?_
  · split at hf
    · cases hf
    · obtain rfl := List.mem_singleton.mp hf
      exact ⟨rfl, .stream h0 (.inr rfl), (by rintro ⟨⟩), hk⟩
  · cases heq
    rw [streamFrames_append, hnil, List.append_nil]
    exact ⟨h0, hk, hg.bytes, hg.outbox_le, hg.credit_le, hg.small, hg.sent, hg.unsent,
      (hg.conserved.pop hin hc).1⟩

/-- Every step keeps the local invariant. -/
theorem Good.step {l : Label} (hP : P.InRange) (G : e.Good P) (H : Step P e l e') : e'.Good P := by
  cases H with
  | emitPriority hp =>
    exact { G with
      idle := fun h => G.idle fun h' => h ⟨h'.done, h'.isOpen⟩
      prio := fun f hf => G.prio f (by rw [hp]; exact List.mem_cons_of_mem _ hf) }
  | emitControl _ hc => exact G.emitControl hc
  | emitData _ hi hs hp => exact G.emitData hi hs hp
  | @«open» cls hr _ hle =>
    have hp : ((e.next + 2) % 2 == 1) = !e.server := by
      rw [← G.next_parity, Nat.add_mod_right]
    have G' := G.grow (Nat.le_add_right e.next 2) hp hle Nat.le.refl G.lastPeer_le
    have hk : Known { e with next := e.next + 2 } e.next := by
      unfold Known
      rw [G.next_parity]
      cases e.server <;> simp
    have hq : streamFrames e.next e.control = [] :=
      List.filter_eq_nil_iff.mpr fun f hf => by
        have hne : f.streamId ≠ e.next := fun h => G.not_known_next (h ▸ (G.control f hf).2.2)
        simp [hne]
    refine G'.setPush (i := e.next) ⟨hr.done, hr.isOpen⟩ _ (fun f hf => ?_) fun s h heq => ?_
    · obtain rfl := List.mem_singleton.mp hf
      exact ⟨rfl, .stream G.next_pos.ne' (.inl rfl), (by rintro ⟨⟩), hk⟩
    · cases heq
      refine ⟨G.next_pos.ne', hk, fresh_streamGood hP (by rintro ⟨⟩) fun _ =>
        ⟨⟨e.next, .open, ThirdParty.cls.encode cls⟩, rfl, ?_⟩⟩
      rw [streamFrames_append, hq]
      simp [streamFrames_cons, FrameType.isStream]
  | @send i s h m ps hi ho _ hsmall hle =>
    obtain ⟨h0, hk, hg⟩ := G.streams i s h hi
    refine G.setOnly (G.ready hi) fun s' h' heq => ?_
    cases heq
    have hbytes := hg.bytes
    refine ⟨h0, hk, by simp only [wireBytes_append]; omega, by dsimp only; omega, hg.credit_le,
      fun p hp => ?_, fun _ => hg.sent (.inl ho), fun _ => hg.unsent (.inl ho), hg.conserved⟩
    rcases List.mem_append.mp hp with hp | hp
    · exact hg.small p hp
    · exact hsmall p hp
  | @finish i s h hi ho =>
    obtain ⟨h0, hk, hg⟩ := G.streams i s h hi
    refine G.setPush (G.ready hi) _ (fun f hf => finFrame_ordinary h0 hk hf) fun s' h' heq => ?_
    cases heq
    refine ⟨h0, hk, hg.bytes, hg.outbox_le, hg.credit_le, hg.small, fun h hs => ?_, fun h hs => ?_,
      hg.conserved⟩
    · have hne : s.outbox ≠ [] := by simpa using h
      simpa [hne] using hg.sent (.inl ho) hs
    · have hne : s.outbox ≠ [] := by simpa using h
      simpa [hne] using hg.unsent (.inl ho) hs
  | @reset i s h code hi =>
    obtain ⟨h0, hk, hg⟩ := G.streams i s h hi
    refine G.setPush (G.ready hi) _ (fun f hf => ?_) (by rintro _ _ ⟨⟩)
    obtain rfl := List.mem_singleton.mp hf
    exact ⟨rfl, .stream h0 (.inl rfl), (by rintro ⟨⟩), hk⟩
  | drop hi => exact G.setOnly (G.ready hi) (by rintro _ _ ⟨⟩)
  | take hi hin hc => exact G.take hi hin hc
  | finished | polled => exact { G with idle := fun h => G.idle fun h' => h ⟨h'.done, h'.isOpen⟩ }
  | @conn f hr h0 ht hd =>
    have hns : f.frameType.isStream = false := by rcases ht with ht | ht <;> rw [ht] <;> rfl
    refine G.update hr (fun g hg => ?_) fun i s h hi => ?_
    · rcases List.mem_append.mp hg with hg | hg
      · exact G.control g hg
      · obtain rfl := List.mem_singleton.mp hg
        refine ⟨.conn h0 ht hd, ?_, h0 ▸ G.known_zero⟩
        rcases ht with ht | ht <;> rw [ht] <;> rintro ⟨⟩
    · obtain ⟨h0, hk, hg⟩ := G.streams i s h hi
      rw [streamFrames_append, streamFrames_cons_other hns, streamFrames_nil, List.append_nil]
      exact ⟨h0, hk, hg⟩
  | close => exact G.shut (by simp [FrameType.isPriority])
  | ignore => exact G
  | challenge _ hs =>
    have hr : ¬e.Ready := fun h => by simp [h.done] at hs
    exact { G with
      role := by
        have := G.role
        cases hsrv : e.server <;> simp_all
      idle := fun _ => G.idle hr
      prio := fun f hf => by
        rcases List.mem_append.mp hf with hf | hf
        · exact G.prio f hf
        · rw [List.mem_singleton.mp hf]
          exact ⟨rfl, rfl⟩ }
  | giveUp => exact G.shut (by simp [FrameType.isPriority])
  | hello _ hs =>
    have hr : ¬e.Ready := fun h => by simp [h.done] at hs
    exact { G with
      role := .inl rfl
      idle := fun _ => G.idle hr
      prio := fun f hf => by
        rcases List.mem_append.mp hf with hf | hf
        · exact G.prio f hf
        · rw [List.mem_singleton.mp hf]
          exact ⟨rfl, rfl⟩ }
  | refuse =>
    refine G.shut fun f hf => ?_
    rcases List.mem_append.mp hf with hf | hf
    · exact G.prio f hf
    · rw [List.mem_singleton.mp hf]
      exact ⟨rfl, rfl⟩
  | welcome _ hs =>
    have hr : ¬e.Ready := fun h => by simp [h.done] at hs
    exact { G with role := .inl rfl, idle := fun _ => G.idle hr }
  | bye => exact G.shut G.prio
  | pinged => exact G
  | @opened f hr _ hp hlt hl =>
    have hle : f.streamId ≤ u32Max := Nat.le_sub_one_of_lt hlt
    have G' := G.grow Nat.le.refl G.next_parity G.next_le (Nat.le_of_lt hl) hle
    have hk : ¬e.Known f.streamId := by
      unfold Known
      rw [if_pos hp]
      omega
    have hk' : Known { e with lastPeer := f.streamId } f.streamId := by
      unfold Known
      rw [if_pos hp]
    have hq : streamFrames f.streamId e.control = [] :=
      List.filter_eq_nil_iff.mpr fun g hg => by
        have hne : g.streamId ≠ f.streamId := fun h => hk (h ▸ (G.control g hg).2.2)
        simp [hne]
    refine G'.setOnly (i := f.streamId) ⟨hr.done, hr.isOpen⟩ fun s h heq => ?_
    cases heq
    exact ⟨Nat.ne_zero_of_lt hl, hk', fresh_streamGood hP (fun _ => hq) (by rintro ⟨⟩)⟩
  | @framed f v hr _ _ hv =>
    refine G.setOnly hr fun s h heq => ?_
    cases v with
    | unknown | gone => cases heq
    | live h' =>
      obtain ⟨⟨s₀, h₀⟩, hi, hx⟩ := Option.map_eq_some_iff.mp heq
      cases hx
      obtain ⟨h0, hk, hg⟩ := G.streams _ _ _ hi
      simp only [view, hi] at hv
      exact ⟨h0, hk, hg.bytes, hg.outbox_le, hg.credit_le, hg.small, hg.sent, hg.unsent,
        conserved_of_step hg.conserved hv⟩
  | @granted f wu hr _ _ =>
    refine G.setOnly hr fun s h heq => ?_
    obtain ⟨⟨s₀, h₀⟩, hi, hx⟩ := Option.map_eq_some_iff.mp heq
    cases hx
    obtain ⟨h0, hk, hg⟩ := G.streams _ _ _ hi
    have h1 := hg.outbox_le
    have h2 := hg.credit_le
    refine ⟨h0, hk, hg.bytes, ?_, ?_, hg.small, hg.sent, hg.unsent, hg.conserved⟩ <;>
      simp only [satAdd32] <;> omega

/-! ## What a step never undoes -/

theorem Step.server {l : Label} (H : Step P e l e') : e'.server = e.server := by
  cases H <;> rfl

theorem Step.known {l : Label} (H : Step P e l e') (h : e.Known i) : e'.Known i := by
  refine h.mono H.server ?_ ?_ <;> cases H <;>
    first | exact Nat.le.refl | exact Nat.le_add_right .. | exact Nat.le_of_lt ‹_›

/-- A step moves no stream, forgets all of them, or changes one: a stream nobody knew of, or one
whose sending half is not reopened. -/
theorem Step.streams_cases {l : Label} (G : e.Good P) (H : Step P e l e') :
    e'.streams = e.streams ∨ (e'.streams = fun _ => none) ∨
    ∃ j x, e'.streams = Function.update e.streams j x ∧ ∀ t k, x = some (t, k) →
      ¬e.Known j ∨ ∃ s h, e.streams j = some (s, h) ∧ (s.localOpen = false → t.localOpen = false) := by
  cases H with
  | emitPriority | finished | polled | conn | ignore | challenge | hello | welcome | pinged =>
    exact .inl rfl
  | close | giveUp | refuse | bye => exact .inr (.inl rfl)
  | emitControl | granted =>
    refine .inr (.inr ⟨_, _, rfl, fun t k hx => .inr ?_⟩)
    obtain ⟨⟨s, h⟩, hs, heq⟩ := Option.map_eq_some_iff.mp hx
    cases heq
    exact ⟨s, h, hs, id⟩
  | emitData _ hi | send hi | take hi =>
    refine .inr (.inr ⟨_, _, rfl, fun t k hx => .inr ⟨_, _, hi, ?_⟩⟩)
    cases hx
    exact id
  | finish hi =>
    refine .inr (.inr ⟨_, _, rfl, fun t k hx => .inr ⟨_, _, hi, ?_⟩⟩)
    cases hx
    exact fun _ => rfl
  | reset | drop => exact .inr (.inr ⟨_, _, rfl, (by rintro _ _ ⟨⟩)⟩)
  | «open» => exact .inr (.inr ⟨_, _, rfl, fun _ _ _ => .inl G.not_known_next⟩)
  | opened _ _ hp _ hl =>
    refine .inr (.inr ⟨_, _, rfl, fun _ _ _ => .inl ?_⟩)
    unfold Known
    rw [if_pos hp]
    omega
  | @framed f v =>
    refine .inr (.inr ⟨_, _, rfl, fun t k hx => .inr ?_⟩)
    cases v with
    | unknown | gone => cases hx
    | live h' =>
      obtain ⟨⟨s, h⟩, hs, heq⟩ := Option.map_eq_some_iff.mp hx
      cases heq
      exact ⟨s, h, hs, id⟩

/-- The sending half of a known stream is never reopened. -/
theorem Step.halfClosed {l : Label} {s' : SendHalf} (G : e.Good P) (H : Step P e l e')
    (hk : e.Known i) (hs' : e'.sendHalf i = some s') :
    ∃ s, e.sendHalf i = some s ∧ (s.localOpen = false → s'.localOpen = false) := by
  obtain ⟨⟨t, k⟩, ht, rfl⟩ := Option.map_eq_some_iff.mp hs'
  rcases H.streams_cases G with heq | heq | ⟨j, x, heq, hx⟩
  · exact ⟨t, by rw [sendHalf, ← heq, ht]; rfl, id⟩
  · rw [heq] at ht
    cases ht
  · rw [heq, Function.update_apply] at ht
    split at ht
    · rename_i hij
      subst hij
      rcases hx t k ht with hn | ⟨s, h, hs, hopen⟩
      · exact absurd hk hn
      · exact ⟨s, by rw [sendHalf, hs]; rfl, hopen⟩
    · exact ⟨t, by rw [sendHalf, ht]; rfl, id⟩

end Endpoint

end TunnelWeaver.Mux
