import Mathlib

/-! Structured frame payloads of the multiplexer (`wire.rs`, `error.rs`, `config.rs`) and the
third-party code it rests on: the postcard codec, the zstd compressor and the two signature
schemes. -/

namespace TunnelWeaver.Mux

abbrev Bytes := List UInt8

/-- Stream identifiers are `u32` on the wire; `0` is reserved for connection-level frames. -/
abbrev StreamId := Nat

abbrev Instant := Nat

abbrev Duration := Nat

/-- A fixed-size byte array `[u8; n]`. -/
def ByteArr (n : Nat) := { l : Bytes // l.length = n }
  deriving DecidableEq

/-- `u32::MAX`. -/
def u32Max : Nat := 2 ^ 32 - 1

/-- The cast `as u32`. -/
def asU32 (n : Nat) : Nat := n % 2 ^ 32

/-- `u32::saturating_add`. -/
def satAdd32 (a b : Nat) : Nat := min (a + b) u32Max

def minVersion : UInt16 := 1
def maxVersion : UInt16 := 1

/-- The bytes of `weaver-mux-v1`. -/
def transcriptPrefixBytes : Bytes := [119, 101, 97, 118, 101, 114, 45, 109, 117, 120, 45, 118, 49]

def dataFlagCompressed : UInt8 := 0x01
def dataFlagMore : UInt8 := 0x02
def dataFlagsKnown : UInt8 := dataFlagCompressed ||| dataFlagMore

inductive KeyId where
  | ed25519 (key : ByteArr 32)
  | p256 (key : ByteArr 33)
  deriving DecidableEq

inductive PublicKey where
  | ed25519 (key : ByteArr 32)
  | p256 (key : ByteArr 33)
  deriving DecidableEq

inductive Signature where
  | ed25519 (sig : ByteArr 64)
  | p256 (sig : ByteArr 64)
  deriving DecidableEq

/-- Scheduling class of a stream, or of the control queue. -/
inductive Class where
  | control
  | realtime
  | interactive
  | bulk
  deriving DecidableEq, Repr

structure Challenge where
  nonceS : ByteArr 32
  deriving DecidableEq

structure Hello where
  version : UInt16
  keyId : KeyId
  nonceC : ByteArr 32
  sig : Signature
  deriving DecidableEq

/-- Connection parameters chosen by the server and announced in WELCOME. -/
structure Params where
  maxFrame : UInt32
  initialWindow : UInt32
  compressionAllowed : Bool
  maxMessage : UInt32
  deriving DecidableEq

structure Welcome where
  version : UInt16
  params : Params
  deriving DecidableEq

inductive RejectCode where
  | unknownKey
  | unsupportedVersion (min max : UInt16)
  | badSignature
  deriving DecidableEq

structure Reject where
  code : RejectCode
  message : String
  deriving DecidableEq

inductive CloseCode where
  | keyRevoked
  | rejected
  | superseded
  | shutdown
  | protocolError
  | timeout
  deriving DecidableEq

/-- Why a connection closed; the GOAWAY payload. -/
structure CloseReason where
  code : CloseCode
  message : String
  deriving DecidableEq

def CloseReason.new (code : CloseCode) : CloseReason := ⟨code, ""⟩

def CloseReason.withMessage (code : CloseCode) (message : String) : CloseReason := ⟨code, message⟩

structure Rst where
  code : UInt32
  deriving DecidableEq

structure WindowUpdate where
  credit : UInt32
  deriving DecidableEq

structure Ping where
  nonce : UInt64
  deriving DecidableEq

/-! ## Third-party code -/

/-- `encode_payload` and `decode_payload` at one payload type: postcard decodes what it
encoded. -/
structure Codec (α : Type) where
  encode : α → Bytes
  decode : Bytes → Option α
  decode_encode : ∀ a, decode (encode a) = some a

/-- The third-party code the multiplexer calls. Of postcard it relies on `decode_encode` at each
payload type; of zstd it relies on decompression within a sufficient cap inverting compression;
nothing is assumed of the signature schemes. -/
class ThirdParty where
  challenge : Codec Challenge
  hello : Codec Hello
  welcome : Codec Welcome
  reject : Codec Reject
  cls : Codec Class
  rst : Codec Rst
  windowUpdate : Codec WindowUpdate
  ping : Codec Ping
  goaway : Codec CloseReason
  zstdCompress : Bytes → Option Bytes
  zstdDecompress : Bytes → Nat → Option Bytes
  zstd_inverse : ∀ {data packed : Bytes} {cap : Nat}, zstdCompress data = some packed →
    data.length ≤ cap → zstdDecompress packed cap = some data
  ed25519Verify : ByteArr 32 → Bytes → ByteArr 64 → Bool
  p256Verify : ByteArr 33 → Bytes → ByteArr 64 → Bool

/-! ## Handshake authentication (`auth.rs`, `handshake.rs`) -/

/-- The client's access to its device key. A connection signs at most once, so the answer is a
function of the message. -/
structure Signer where
  keyId : KeyId
  sign : Bytes → Except String Signature

/-- The server's key lookup. A connection looks a key up at most once; the answers of
`still_valid`, asked again and again, are an input of `Connection.handleTimeout`. -/
structure Verifier where
  publicKey : KeyId → Option PublicKey

/-- `str::as_bytes`. -/
def utf8Bytes (s : String) : Bytes := s.toUTF8.data.toList

/-- `"weaver-mux-v1" ‖ nonce_s ‖ nonce_c ‖ server_name [‖ channel_binding]`. -/
def transcript (nonceS nonceC : ByteArr 32) (serverName : String)
    (channelBinding : Option (ByteArr 32)) : Bytes :=
  transcriptPrefixBytes ++ nonceS.1 ++ nonceC.1 ++ utf8Bytes serverName ++
    match channelBinding with
    | some cb => cb.1
    | none => []

/-- The algorithm variants of key id, key and signature must agree, and the key must be the one
the key id names. -/
def verify [ThirdParty] (keyId : KeyId) (key : PublicKey) (msg : Bytes) (sig : Signature) : Bool :=
  match keyId, key, sig with
  | .ed25519 id, .ed25519 pk, .ed25519 sig =>
    if id ≠ pk then false else ThirdParty.ed25519Verify pk msg sig
  | .p256 id, .p256 pk, .p256 sig =>
    if id ≠ pk then false else ThirdParty.p256Verify pk msg sig
  | _, _, _ => false

inductive HandshakeState where
  | awaitChallenge
  | challengeSent
  | helloSent
  | done
  deriving DecidableEq, Repr

def negotiate (clientMax : UInt16) : Except RejectCode UInt16 :=
  if clientMax < minVersion then .error (.unsupportedVersion minVersion maxVersion)
  else .ok (if clientMax ≤ maxVersion then clientMax else maxVersion)

def acceptVersion (offered chosen : UInt16) : Bool :=
  decide (minVersion ≤ chosen) && decide (chosen ≤ maxVersion) && decide (chosen ≤ offered)

/-- A version the server negotiates is one the client accepts. -/
theorem acceptVersion_of_negotiate {v w : UInt16} (h : negotiate v = .ok w) :
    acceptVersion maxVersion w = true := by
  unfold negotiate at h
  split at h
  · cases h
  · rename_i hv
    cases h
    split
    · rename_i hle
      rw [UInt16.le_antisymm hle (UInt16.not_lt.mp hv)]
      decide
    · decide

end TunnelWeaver.Mux
