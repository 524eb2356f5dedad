import TunnelWeaver.Lib.Chunks
import TunnelWeaver.Mux.Frame

/-! Configuration, flow-control windows, compression policy, per-stream bookkeeping and
deadlines (`config.rs`, `flow.rs`, `compress.rs`, `stream.rs`, `timers.rs`). -/

namespace TunnelWeaver.Mux

/-! ## Configuration -/

/-- QFQ weights of the four scheduling classes. -/
structure Weights where
  control : Nat := 1000
  realtime : Nat := 300
  interactive : Nat := 300
  bulk : Nat := 40

inductive Role where
  | client (signer : Signer)
  | server (verifier : Verifier) (params : Params) (reverifyInterval : Option Duration)

def Role.isServer : Role → Bool
  | .client _ => false
  | .server .. => true

/-- What a server announces by default. -/
def Params.default : Params where
  maxFrame := 16 * 1024
  initialWindow := 512 * 1024
  compressionAllowed := true
  maxMessage := 1024 * 1024

def minWindow : UInt32 := 64 * 1024
def maxWindow : UInt32 := 4 * 1024 * 1024
def minMessage : UInt32 := 16 * 1024

/-- Nanoseconds in a second. -/
def secs (n : Nat) : Duration := n * 1000000000

def handshakeTimeout : Duration := secs 10

def defaultBulkThreshold : Nat := 256 * 1024

/-- `rng` is the 32 bytes the generator yields: each side draws one nonce. -/
structure Config where
  role : Role
  rng : ByteArr 32
  serverName : String
  weights : Weights := {}
  bulkThreshold : Option Nat := some defaultBulkThreshold
  pingInterval : Duration := secs 15
  idleTimeout : Duration := secs 60
  channelBinding : Option (ByteArr 32) := none

def clampWindow (w : UInt32) : UInt32 :=
  if w < minWindow then minWindow else if maxWindow < w then maxWindow else w

def Params.normalize (p : Params) : Params :=
  { p with
    initialWindow := clampWindow p.initialWindow
    maxFrame := if p.maxFrame < 2 then 2 else p.maxFrame
    maxMessage := if p.maxMessage < minMessage then minMessage else p.maxMessage }

def Role.normalize : Role → Role
  | .client s => .client s
  | .server v p i => .server v p.normalize i

/-- Clamp the announced parameters into the ranges the protocol allows. -/
def Config.normalize (cfg : Config) : Config := { cfg with role := cfg.role.normalize }

/-- The ranges a client checks on WELCOME. -/
structure Params.InRange (p : Params) : Prop where
  window_ge : minWindow ≤ p.initialWindow
  window_le : p.initialWindow ≤ maxWindow
  frame_ge : ¬p.maxFrame < 2
  message_ge : ¬p.maxMessage < minMessage

/-- A server never announces parameters the client must reject. -/
theorem Params.normalize_inRange (p : Params) : p.normalize.InRange := by
  have hw : minWindow ≤ clampWindow p.initialWindow ∧ clampWindow p.initialWindow ≤ maxWindow := by
    unfold clampWindow
    split
    · exact ⟨UInt32.le_refl _, by decide⟩
    · rename_i h1
      split
      · exact ⟨by decide, UInt32.le_refl _⟩
      · rename_i h2
        exact ⟨UInt32.not_lt.mp h1, UInt32.not_lt.mp h2⟩
  refine ⟨hw.1, hw.2, ?_, ?_⟩ <;> simp only [Params.normalize] <;> split <;> simp_all

/-! ## Flow control -/

/-- How many wire bytes may still be sent before the peer grants more. -/
structure SendWindow where
  credit : Nat
  deriving DecidableEq

namespace SendWindow

def new (initial : Nat) : SendWindow := ⟨initial⟩

def grant (w : SendWindow) (extra : Nat) : SendWindow := ⟨satAdd32 w.credit extra⟩

def consume (w : SendWindow) (wireLen : Nat) : SendWindow := ⟨w.credit - wireLen⟩

end SendWindow

/-- What the peer may still send, and when to top it up. -/
structure RecvWindow where
  window : Nat
  remaining : Nat
  consumedSinceUpdate : Nat
  deriving DecidableEq

namespace RecvWindow

def new (window : Nat) : RecvWindow := ⟨window, window, 0⟩

/-- `none` when the peer exceeded its credit. -/
def onData (w : RecvWindow) (wireLen : Nat) : Option RecvWindow :=
  if w.remaining < wireLen then none else some { w with remaining := w.remaining - wireLen }

/-- The application consumed `wireLen` bytes: the new window and the credit to announce, once at
least half the window was consumed since the last update. -/
def onConsumed (w : RecvWindow) (wireLen : Nat) : RecvWindow × Option Nat :=
  let consumed := satAdd32 w.consumedSinceUpdate wireLen
  if w.window / 2 ≤ consumed then
    ({ w with consumedSinceUpdate := 0, remaining := satAdd32 w.remaining consumed }, some consumed)
  else ({ w with consumedSinceUpdate := consumed }, none)

end RecvWindow

/-! ## Compression policy -/

inductive Compress where
  | auto
  | never
  deriving DecidableEq

def minCompressLen : Nat := 1024
def entropySample : Nat := 4096
def entropyCutoff : Float := 7.5

/-- Shannon entropy over a 256-bucket byte histogram, in bits per byte. -/
def entropyBitsPerByte (sample : Bytes) : Float :=
  if sample.isEmpty then 0.0
  else
    let hist := (List.range 256).map fun b => sample.count (UInt8.ofNat b)
    let n := Float.ofNat sample.length
    let terms := (hist.filter (0 < ·)).map fun c =>
      let p := Float.ofNat c / n
      Float.neg p * p.log2
    terms.foldl (· + ·) 0.0

def shouldCompress (stance : Compress) (cls : Class) (fragment : Bytes) : Bool :=
  if stance = .never ∨ cls = .realtime then false
  else if fragment.length < minCompressLen then false
  else decide (entropyBitsPerByte (fragment.take entropySample) < entropyCutoff)

/-! ## Streams -/

structure Stream where
  cls : Class
  localOpen : Bool
  remoteOpen : Bool
  openSent : Bool
  outbox : List Bytes
  outboxBytes : Nat
  inbox : List (Bytes × Nat)
  partialMsg : Bytes
  partialWire : Nat
  send : SendWindow
  recv : RecvWindow
  writtenTotal : Nat
  wantsWritable : Bool
  deriving DecidableEq

namespace Stream

def new (cls : Class) (window : Nat) (openSent : Bool) : Stream where
  cls := cls
  localOpen := true
  remoteOpen := true
  openSent := openSent
  outbox := []
  outboxBytes := 0
  inbox := []
  partialMsg := []
  partialWire := 0
  send := .new window
  recv := .new window
  writtenTotal := 0
  wantsWritable := false

/-- Wire bytes of the next DATA frame to send, if any. -/
def headLen (s : Stream) : Option Nat :=
  s.outbox.head?.map fun p => asU32 (Frame.headerLen + p.length)

/-- Credit not yet claimed by frames sitting in the outbox. -/
def freeCredit (s : Stream) : Nat := s.send.credit - s.outboxBytes

def remoteDrained (s : Stream) : Bool := !s.remoteOpen && s.inbox.isEmpty

/-- The stream after `payload`, the first of its outbox, was put on the wire. -/
def popOutbox (s : Stream) (payload : Bytes) (rest : List Bytes) : Stream :=
  let len := asU32 payload.length
  { s with
    outbox := rest
    outboxBytes := s.outboxBytes - len
    send := s.send.consume len }

/-- The stream, now of class `cls`, after a message of `len` bytes was queued as the DATA payloads
`out`. -/
def pushOutbox (s : Stream) (cls : Class) (out : List Bytes) (len : Nat) : Stream :=
  { s with
    cls
    outbox := s.outbox ++ out
    outboxBytes := s.outboxBytes + (out.map fun p => asU32 p.length).sum
    writtenTotal := s.writtenTotal + len }

/-- Both directions are done and nothing is left to send or deliver. -/
def isFinished (s : Stream) : Bool := !s.localOpen && s.outbox.isEmpty && s.remoteDrained

end Stream

/-! ## Deadlines -/

inductive Expired where
  | handshake
  | idle
  | ping
  | reverify
  deriving DecidableEq

structure Timers where
  lastNow : Instant
  lastRecv : Instant
  handshakeDeadline : Option Instant
  authenticated : Bool
  pingOutstanding : Option UInt64
  reverifyDue : Option Instant
  pingInterval : Duration
  idleTimeout : Duration
  reverifyInterval : Option Duration

namespace Timers

def new (now : Instant) (handshakeTimeout pingInterval idleTimeout : Duration)
    (reverifyInterval : Option Duration) : Timers where
  lastNow := now
  lastRecv := now
  handshakeDeadline := some (now + handshakeTimeout)
  authenticated := false
  pingOutstanding := none
  reverifyDue := none
  pingInterval := pingInterval
  idleTimeout := idleTimeout
  reverifyInterval := reverifyInterval

/-- Clamp `now` so that time never runs backwards; `lastNow` of the result is the clamped value. -/
def observe (t : Timers) (now : Instant) : Timers := { t with lastNow := max now t.lastNow }

def onAuthenticated (t : Timers) (now : Instant) : Timers :=
  { t with
    authenticated := true
    handshakeDeadline := none
    lastRecv := now
    reverifyDue := t.reverifyInterval.map (now + ·) }

def onRecv (t : Timers) (now : Instant) : Timers := { t with lastRecv := now }

def pingDue (t : Timers) : Option Instant :=
  if t.authenticated ∧ t.pingOutstanding = none then some (t.lastRecv + t.pingInterval) else none

def idleDeadline (t : Timers) : Option Instant :=
  if t.authenticated then some (t.lastRecv + t.idleTimeout) else none

def nextTimeout (t : Timers) : Option Instant :=
  ([t.handshakeDeadline, t.pingDue, t.idleDeadline, t.reverifyDue].filterMap id).min?

def passed (deadline : Option Instant) (now : Instant) : Bool := deadline.any (· ≤ now)

/-- The first deadline that has passed, in severity order. -/
def expired (t : Timers) (now : Instant) : Option Expired :=
  if passed t.handshakeDeadline now then some .handshake
  else if passed t.idleDeadline now then some .idle
  else if passed t.reverifyDue now then some .reverify
  else if passed t.pingDue now then some .ping
  else none

/-- Disarm everything. -/
def clear (t : Timers) : Timers :=
  { t with
    handshakeDeadline := none
    authenticated := false
    pingOutstanding := none
    reverifyDue := none }

/-- A PING is due only on an authenticated connection. -/
theorem authenticated_of_expired_ping {t : Timers} {now : Instant}
    (h : t.expired now = some .ping) : t.authenticated = true := by
  unfold expired at h
  split at h; · cases h
  split at h; · cases h
  split at h; · cases h
  split at h
  · rename_i hp
    unfold pingDue at hp
    split at hp
    · rename_i ha; exact ha.1
    · simp [passed] at hp
  · cases h

end Timers

end TunnelWeaver.Mux
