import TunnelWeaver.Mux.Wire

/-! The frame header codec (`frame.rs`): `[stream_id: u32 BE][type: u8][payload...]`, and the
errors and events of a connection (`error.rs`, `event.rs`). A frame whose stream id fits in
`u32` parses back from its encoding (`Frame.parse_encode`). -/

namespace TunnelWeaver.Mux

inductive FrameType where
  | challenge
  | hello
  | welcome
  | reject
  | «open»
  | data
  | fin
  | rst
  | windowUpdate
  | ping
  | pong
  | goaway
  deriving DecidableEq, Repr

namespace FrameType

def toByte : FrameType → UInt8
  | challenge => 0x01
  | hello => 0x02
  | welcome => 0x03
  | reject => 0x04
  | «open» => 0x05
  | data => 0x06
  | fin => 0x07
  | rst => 0x08
  | windowUpdate => 0x09
  | ping => 0x0a
  | pong => 0x0b
  | goaway => 0x0c

def all : List FrameType :=
  [challenge, hello, welcome, reject, «open», data, fin, rst, windowUpdate, ping, pong, goaway]

def ofByte (b : UInt8) : Option FrameType := all.find? fun t => t.toByte == b

theorem ofByte_toByte (t : FrameType) : ofByte t.toByte = some t := by
  cases t <;> rfl

/-- The `Debug` form, which error messages print. -/
def name : FrameType → String
  | challenge => "Challenge"
  | hello => "Hello"
  | welcome => "Welcome"
  | reject => "Reject"
  | «open» => "Open"
  | data => "Data"
  | fin => "Fin"
  | rst => "Rst"
  | windowUpdate => "WindowUpdate"
  | ping => "Ping"
  | pong => "Pong"
  | goaway => "Goaway"

end FrameType

/-! ## Errors and events -/

/-- Protocol violations detected while receiving frames. -/
inductive ProtocolError where
  | truncated (len : Nat)
  | unknownFrameType (byte : UInt8)
  | decode (frameType : FrameType)
  | stateViolation (what : String)
  | badStreamId (id : StreamId)
  | flowControl (id : StreamId)
  | messageTooLarge (id : StreamId)
  | badPolicy (id : StreamId)
  | decompress (id : StreamId)
  | badParams (what : String)
  deriving DecidableEq

def hexDigit (n : Nat) : Char := (Nat.toDigits 16 n).headD '0'

def hexByte (b : UInt8) : String :=
  String.ofList [hexDigit (b.toNat / 16), hexDigit (b.toNat % 16)]

/-- The `Display` form, sent to the peer as the GOAWAY message. -/
def ProtocolError.text : ProtocolError → String
  | truncated n =>
    "truncated frame input: expected at least 5 header bytes, found " ++ toString n
  | unknownFrameType b => "unknown frame type discriminant: 0x" ++ hexByte b
  | decode t => "malformed " ++ t.name ++ " payload"
  | stateViolation what => "frame not allowed in current state: " ++ what
  | badStreamId id => "invalid stream id " ++ toString id
  | flowControl id => "flow control violation on stream " ++ toString id
  | messageTooLarge id => "message too large on stream " ++ toString id
  | badPolicy id => "invalid stream policy on stream " ++ toString id
  | decompress id => "decompression failed on stream " ++ toString id
  | badParams what => "invalid negotiated parameter: " ++ what

/-- Errors returned by the per-stream API. -/
inductive StreamError where
  | notAuthenticated
  | closed
  | unknownStream
  | sendClosed
  | wouldBlock
  | invalidClass
  | exhausted
  | tooLarge (len max : Nat)
  deriving DecidableEq

inductive Event where
  | authenticated (keyId : KeyId) (version : UInt16)
  | rejected (code : RejectCode) (message : String)
  | streamOpened (id : StreamId) (cls : Class)
  | readable (id : StreamId)
  | writable (id : StreamId) (credit : Nat)
  | finished (id : StreamId)
  | reset (id : StreamId) (code : UInt32)
  | closed (reason : CloseReason)
  deriving DecidableEq

/-! ## Frames -/

structure Frame where
  streamId : StreamId
  frameType : FrameType
  payload : Bytes
  deriving DecidableEq

namespace Frame

def headerLen : Nat := 5

/-- `u32::from_be_bytes`. -/
def idOfBytes (b0 b1 b2 b3 : UInt8) : Nat :=
  b0.toNat * 2 ^ 24 + b1.toNat * 2 ^ 16 + b2.toNat * 2 ^ 8 + b3.toNat

def parse : Bytes → Except ProtocolError Frame
  | b0 :: b1 :: b2 :: b3 :: t :: payload =>
    match FrameType.ofByte t with
    | some frameType => .ok ⟨idOfBytes b0 b1 b2 b3, frameType, payload⟩
    | none => .error (.unknownFrameType t)
  | input => .error (.truncated input.length)

/-- `encode_into` on an empty buffer. -/
def encode (f : Frame) : Bytes :=
  [UInt8.ofNat (f.streamId / 2 ^ 24), UInt8.ofNat (f.streamId / 2 ^ 16),
    UInt8.ofNat (f.streamId / 2 ^ 8), UInt8.ofNat f.streamId, f.frameType.toByte] ++ f.payload

def wireLen (f : Frame) : Nat := headerLen + f.payload.length

theorem idOfBytes_encode {id : Nat} (h : id < 2 ^ 32) :
    idOfBytes (UInt8.ofNat (id / 2 ^ 24)) (UInt8.ofNat (id / 2 ^ 16)) (UInt8.ofNat (id / 2 ^ 8))
      (UInt8.ofNat id) = id := by
  simp only [idOfBytes, UInt8.toNat_ofNat']
  omega

/-- A frame whose stream id fits in `u32` parses back. -/
theorem parse_encode {f : Frame} (h : f.streamId < 2 ^ 32) : parse f.encode = .ok f := by
  simp only [parse, encode, List.cons_append, List.nil_append, FrameType.ofByte_toByte,
    idOfBytes_encode h]

end Frame

end TunnelWeaver.Mux
