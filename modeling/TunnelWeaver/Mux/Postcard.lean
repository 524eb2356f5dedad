import TunnelWeaver.Lib.Serde
import TunnelWeaver.Mux.Wire

/-! The postcard encoding of the frame payloads: fields in order, numbers and enum variants as
varints, arrays byte by byte, strings after their length. It gives the multiplexer's third-party
code a concrete form in which runs can be evaluated. -/

namespace TunnelWeaver.Mux.Postcard

open Serde

def u16 : Format UInt16 :=
  (varint 2 (2 ^ 16) (by decide)).via (fun n => some (UInt16.ofNat n))
    (fun n => ⟨n.toNat, n.toNat_lt⟩) fun n => by simp

def u32 : Format UInt32 :=
  (varint 4 (2 ^ 32) (by decide)).via (fun n => some (UInt32.ofNat n))
    (fun n => ⟨n.toNat, n.toNat_lt⟩) fun n => by simp

def u64 : Format UInt64 :=
  (varint 9 (2 ^ 64) (by decide)).via (fun n => some (UInt64.ofNat n))
    (fun n => ⟨n.toNat, n.toNat_lt⟩) fun n => by simp

def bool : Format Bool where
  put b := [if b then 1 else 0]
  take
    | 0 :: rest => some (false, rest)
    | 1 :: rest => some (true, rest)
    | _ => none
  take_put b rest := by cases b <;> rfl

def byteArr (n : Nat) : Format (ByteArr n) := exact n

def string : Format String :=
  counted.via (fun l => String.fromUTF8? (ByteArray.mk l.toArray)) utf8Bytes fun s => by
    have h : ByteArray.mk (utf8Bytes s).toArray = s.toUTF8 := by simp [utf8Bytes]
    rw [h, String.fromUTF8?, dif_pos (show s.toUTF8.IsValidUTF8 from s.isValidUTF8)]
    rfl

/-! ## Enums -/

def keyId : Format KeyId where
  put
    | .ed25519 key => 0 :: (byteArr 32).put key
    | .p256 key => 1 :: (byteArr 33).put key
  take
    | 0 :: rest => ((byteArr 32).take rest).map fun x => (.ed25519 x.1, x.2)
    | 1 :: rest => ((byteArr 33).take rest).map fun x => (.p256 x.1, x.2)
    | _ => none
  take_put k rest := by cases k <;> simp [Format.take_put]

def signature : Format Signature where
  put
    | .ed25519 sig => 0 :: (byteArr 64).put sig
    | .p256 sig => 1 :: (byteArr 64).put sig
  take
    | 0 :: rest => ((byteArr 64).take rest).map fun x => (.ed25519 x.1, x.2)
    | 1 :: rest => ((byteArr 64).take rest).map fun x => (.p256 x.1, x.2)
    | _ => none
  take_put k rest := by cases k <;> simp [Format.take_put]

def cls : Format Class where
  put
    | .control => [0]
    | .realtime => [1]
    | .interactive => [2]
    | .bulk => [3]
  take
    | 0 :: rest => some (.control, rest)
    | 1 :: rest => some (.realtime, rest)
    | 2 :: rest => some (.interactive, rest)
    | 3 :: rest => some (.bulk, rest)
    | _ => none
  take_put c rest := by cases c <;> rfl

def rejectCode : Format RejectCode where
  put
    | .unknownKey => [0]
    | .unsupportedVersion min max => 1 :: (u16.pair u16).put (min, max)
    | .badSignature => [2]
  take
    | 0 :: rest => some (.unknownKey, rest)
    | 1 :: rest => ((u16.pair u16).take rest).map fun x => (.unsupportedVersion x.1.1 x.1.2, x.2)
    | 2 :: rest => some (.badSignature, rest)
    | _ => none
  take_put c rest := by cases c <;> simp [Format.take_put]

def closeCode : Format CloseCode where
  put
    | .keyRevoked => [0]
    | .rejected => [1]
    | .superseded => [2]
    | .shutdown => [3]
    | .protocolError => [4]
    | .timeout => [5]
  take
    | 0 :: rest => some (.keyRevoked, rest)
    | 1 :: rest => some (.rejected, rest)
    | 2 :: rest => some (.superseded, rest)
    | 3 :: rest => some (.shutdown, rest)
    | 4 :: rest => some (.protocolError, rest)
    | 5 :: rest => some (.timeout, rest)
    | _ => none
  take_put c rest := by cases c <;> rfl

/-! ## Payloads -/

def challenge : Format Challenge :=
  (byteArr 32).via (fun n => some ⟨n⟩) (·.nonceS) fun _ => rfl

def hello : Format Hello :=
  (u16.pair (keyId.pair ((byteArr 32).pair signature))).via
    (fun x => some ⟨x.1, x.2.1, x.2.2.1, x.2.2.2⟩) (fun h => (h.version, h.keyId, h.nonceC, h.sig))
    fun _ => rfl

def params : Format Params :=
  (u32.pair (u32.pair (bool.pair u32))).via (fun x => some ⟨x.1, x.2.1, x.2.2.1, x.2.2.2⟩)
    (fun p => (p.maxFrame, p.initialWindow, p.compressionAllowed, p.maxMessage)) fun _ => rfl

def welcome : Format Welcome :=
  (u16.pair params).via (fun x => some ⟨x.1, x.2⟩) (fun w => (w.version, w.params)) fun _ => rfl

def reject : Format Reject :=
  (rejectCode.pair string).via (fun x => some ⟨x.1, x.2⟩) (fun r => (r.code, r.message)) fun _ => rfl

def closeReason : Format CloseReason :=
  (closeCode.pair string).via (fun x => some ⟨x.1, x.2⟩) (fun r => (r.code, r.message)) fun _ => rfl

def codec {α : Type} (F : Format α) : Codec α := ⟨F.put, F.decode, F.decode_put⟩

/-- Postcard next to a compressor that declines and a verifier that knows one ed25519 signature. -/
@[reducible] def withSignature (key : ByteArr 32) (msg : Bytes) (sig : ByteArr 64) : ThirdParty where
  challenge := codec challenge
  hello := codec hello
  welcome := codec welcome
  reject := codec reject
  cls := codec cls
  rst := codec (u32.via (fun n => some ⟨n⟩) (·.code) fun _ => rfl)
  windowUpdate := codec (u32.via (fun n => some ⟨n⟩) (·.credit) fun _ => rfl)
  ping := codec (u64.via (fun n => some ⟨n⟩) (·.nonce) fun _ => rfl)
  goaway := codec closeReason
  zstdCompress _ := none
  zstdDecompress _ _ := none
  zstd_inverse h := nomatch h
  ed25519Verify key' msg' sig' := decide (key' = key ∧ msg' = msg ∧ sig' = sig)
  p256Verify _ _ _ := false

end TunnelWeaver.Mux.Postcard
