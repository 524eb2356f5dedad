import TunnelWeaver.Lib.Automaton
import TunnelWeaver.Mux.Connection

/-! The receiving half of one stream as an automaton over the frames of that stream.

`View` is what a receiver knows of a stream id: never opened, known but no longer tracked, or
tracked with some `RecvHalf`. `View.step` is what one OPEN, DATA, FIN or RST frame makes of it, or
`none` where the receiver would report a protocol error; `View.run` folds it over the frames still
to come. The invariants of a pair of endpoints say that the frames a sender has queued, put on the
wire or committed to send run without error from the receiver's present view. -/

namespace TunnelWeaver.Mux

/-- The sending half of a stream. -/
structure SendHalf where
  localOpen : Bool
  openSent : Bool
  outbox : List Bytes
  outboxBytes : Nat
  credit : Nat

/-- The receiving half of a stream. -/
structure RecvHalf where
  remoteOpen : Bool
  inbox : List (Bytes × Nat)
  partialMsg : Bytes
  partialWire : Nat
  recv : RecvWindow

def Stream.sendHalf (s : Stream) : SendHalf where
  localOpen := s.localOpen
  openSent := s.openSent
  outbox := s.outbox
  outboxBytes := s.outboxBytes
  credit := s.send.credit

def Stream.recvHalf (s : Stream) : RecvHalf where
  remoteOpen := s.remoteOpen
  inbox := s.inbox
  partialMsg := s.partialMsg
  partialWire := s.partialWire
  recv := s.recv

namespace RecvHalf

def fresh (window : Nat) : RecvHalf := ⟨true, [], [], 0, .new window⟩

/-- The half after an accepted DATA frame. -/
def deliver (h : RecvHalf) (recv : RecvWindow) (wireLen : Nat) (data : Bytes) (more : Bool) :
    RecvHalf :=
  if more then
    { h with recv, partialMsg := h.partialMsg ++ data, partialWire := satAdd32 h.partialWire wireLen }
  else
    { h with
      recv
      partialMsg := []
      partialWire := 0
      inbox := h.inbox ++ [(h.partialMsg ++ data, satAdd32 h.partialWire wireLen)] }

/-- A DATA frame of `wireLen` payload bytes that decodes to `data`. -/
def onData (P : Params) (h : RecvHalf) (wireLen : Nat) (data : Bytes) (more : Bool) :
    Option RecvHalf :=
  if !h.remoteOpen then none
  else match h.recv.onData wireLen with
    | none => none
    | some recv =>
      if P.maxMessage.toNat < h.partialMsg.length + data.length then none
      else some (h.deliver recv wireLen data more)

def onFin (h : RecvHalf) : Option RecvHalf :=
  if h.remoteOpen ∧ h.partialMsg = [] then some { h with remoteOpen := false } else none

/-- The half after the first message was taken and `credit` bytes were returned to the peer. -/
def pop (h : RecvHalf) (consumed credit : Nat) : RecvHalf :=
  { h with
    inbox := h.inbox.tail
    recv := { h.recv with
      consumedSinceUpdate := consumed
      remaining := h.recv.remaining + credit } }

def messages (h : RecvHalf) : List Bytes := h.inbox.map (·.1)

/-- Flow-control accounting of a receiving half whose window is `window`. -/
structure Conserved (window : Nat) (h : RecvHalf) : Prop where
  window_eq : h.recv.window = window
  remaining_le : h.recv.remaining ≤ window
  consumed_lt : h.recv.consumedSinceUpdate < window / 2
  total : h.remoteOpen = true → window = h.recv.remaining + h.partialWire +
    (h.inbox.map (·.2)).sum + h.recv.consumedSinceUpdate

theorem fresh_conserved {window : Nat} (h : 2 ≤ window) : (fresh window).Conserved window := by
  refine ⟨rfl, Nat.le.refl, ?_, fun _ => ?_⟩
  · simp only [fresh, RecvWindow.new]; omega
  · simp [fresh, RecvWindow.new]

theorem onData_eq_some {P : Params} {h h' : RecvHalf} {n : Nat} {data : Bytes} {more : Bool} :
    h.onData P n data more = some h' ↔ h.remoteOpen = true ∧ n ≤ h.recv.remaining ∧
      h.partialMsg.length + data.length ≤ P.maxMessage.toNat ∧
      h' = h.deliver { h.recv with remaining := h.recv.remaining - n } n data more := by
  unfold onData RecvWindow.onData
  cases h.remoteOpen
  · simp
  · by_cases hn : h.recv.remaining < n
    · simp [hn]
    · by_cases hm : P.maxMessage.toNat < h.partialMsg.length + data.length
      · simp [hn, hm]
      · simp [hn, Nat.not_lt.mp hn, hm, Nat.not_lt.mp hm, eq_comm]

theorem onFin_eq_some {h h' : RecvHalf} : h.onFin = some h' ↔
    h.remoteOpen = true ∧ h.partialMsg = [] ∧ h' = { h with remoteOpen := false } := by
  unfold onFin
  split
  · rename_i hc; simp [hc, eq_comm]
  · rename_i hc
    simp only [reduceCtorEq, false_iff]
    rintro ⟨h1, h2, _⟩
    exact hc ⟨h1, h2⟩

/-- A half and what frames of its stream made of it. -/
structure Extends (n : Nat) (h h' : RecvHalf) : Prop where
  inbox : h.inbox <+: h'.inbox
  closes : h.remoteOpen = false → h'.remoteOpen = false
  remaining : h'.recv.remaining + n = h.recv.remaining

theorem Extends.refl (h : RecvHalf) : Extends 0 h h := ⟨List.prefix_rfl, id, rfl⟩

theorem Extends.trans {m n : Nat} {h h' h'' : RecvHalf} (H : Extends m h h')
    (H' : Extends n h' h'') : Extends (m + n) h h'' where
  inbox := H.inbox.trans H'.inbox
  closes := H'.closes ∘ H.closes
  remaining := by have := H.remaining; have := H'.remaining; omega

theorem Extends.messages {n : Nat} {h h' : RecvHalf} (H : Extends n h h') :
    h.messages <+: h'.messages := H.inbox.map _

theorem Extends.of_onData {P : Params} {h h' : RecvHalf} {n : Nat} {data : Bytes} {more : Bool}
    (H : h.onData P n data more = some h') : Extends n h h' := by
  obtain ⟨ho, hn, _, rfl⟩ := onData_eq_some.mp H
  have hr : h.recv.remaining - n + n = h.recv.remaining := Nat.sub_add_cancel hn
  cases more
  · exact ⟨List.prefix_append .., fun h => h, hr⟩
  · exact ⟨List.prefix_rfl, fun h => h, hr⟩

theorem Extends.of_onFin {h h' : RecvHalf} (H : h.onFin = some h') : Extends 0 h h' := by
  obtain ⟨_, _, rfl⟩ := onFin_eq_some.mp H
  exact ⟨List.prefix_rfl, fun _ => rfl, rfl⟩

end RecvHalf

/-! ## Views -/

inductive View where
  | unknown
  | gone
  | live (h : RecvHalf)

namespace View

variable [ThirdParty]

/-- What one frame of the stream makes of the receiver's view; `peerOdd` is the parity of the ids
the sender may open. -/
def step (P : Params) (peerOdd : Bool) (v : View) (f : Frame) : Option View :=
  match f.frameType with
  | .open =>
    match v with
    | .unknown =>
      if (f.streamId % 2 == 1) = peerOdd ∧
          ∃ cls, ThirdParty.cls.decode f.payload = some cls ∧ cls ≠ .control then
        some (.live (.fresh P.initialWindow.toNat))
      else none
    | .gone | .live _ => none
  | .data =>
    match Connection.parseData P f.streamId f.payload with
    | .error _ => none
    | .ok (data, more) =>
      match v with
      | .unknown => none
      | .gone => some .gone
      | .live h => (h.onData P (asU32 f.payload.length) data more).map .live
  | .fin =>
    match v with
    | .unknown => none
    | .gone => some .gone
    | .live h => h.onFin.map .live
  | .rst =>
    match v with
    | .unknown => none
    | .gone | .live _ => (ThirdParty.rst.decode f.payload).map fun _ => .gone
  | .challenge | .hello | .welcome | .reject | .windowUpdate | .ping | .pong | .goaway => none

def run (P : Params) (peerOdd : Bool) (v : View) (fs : List Frame) : Option View :=
  Automaton.run (step P peerOdd) v fs

end View

end TunnelWeaver.Mux
