import TunnelWeaver.Mux.Postcard
import TunnelWeaver.Proto.Schema

/-! The postcard encoding of the application protocol, in which runs of the relay and of a client can
be evaluated. -/

namespace TunnelWeaver.Proto

open Mux (Bytes)
open Mux.Postcard (string u16)
open Serde

namespace Formats

variable {α : Type} {F : Format α}

/-- `n` values, one after the other. -/
def takeSeq (F : Format α) : Nat → List UInt8 → Option (List α × List UInt8)
  | 0, bytes => some ([], bytes)
  | n + 1, bytes => (F.take bytes).bind fun x => (takeSeq F n x.2).map fun y => (x.1 :: y.1, y.2)

theorem takeSeq_put (l : List α) (rest : List UInt8) :
    takeSeq F l.length (l.flatMap F.put ++ rest) = some (l, rest) := by
  induction l with
  | nil => rfl
  | cons a l ih =>
    rw [List.flatMap_cons, List.append_assoc, List.length_cons, takeSeq, F.take_put, Option.bind_some,
      ih]
    rfl

theorem length_le_flatMap (hpos : ∀ a, F.put a ≠ []) (l : List α) :
    l.length ≤ (l.flatMap F.put).length := by
  induction l with
  | nil => exact Nat.le_refl _
  | cons a l ih =>
    have h := List.length_pos_of_ne_nil (hpos a)
    rw [List.flatMap_cons, List.length_append, List.length_cons]
    omega

theorem putVarint_ne_nil (k n : Nat) : putVarint (k + 1) n ≠ [] := by
  unfold putVarint
  split <;> simp

/-- A list of values after its length. -/
def seq (F : Format α) (hpos : ∀ a, F.put a ≠ []) : Format (List α) where
  put l := putVarint (l.length + 1) l.length ++ l.flatMap F.put
  take bytes := (takeVarint bytes.length bytes).bind fun x => takeSeq F x.1 x.2
  take_put l rest := by
    have hle := length_le_flatMap hpos l
    have hput := List.length_pos_of_ne_nil (putVarint_ne_nil l.length l.length)
    obtain ⟨k, hk⟩ : ∃ k,
        (putVarint (l.length + 1) l.length ++ l.flatMap F.put ++ rest).length = k + 1 :=
      ⟨(putVarint (l.length + 1) l.length ++ l.flatMap F.put ++ rest).length - 1, by
        simp only [List.length_append]
        omega⟩
    have hlk : l.length ≤ k := by
      simp only [List.length_append] at hk
      omega
    have hlt : l.length < 128 ^ (l.length + 1) :=
      Nat.lt_trans Nat.lt_two_pow_self (Nat.lt_of_lt_of_le
        (Nat.pow_lt_pow_right (by decide) (Nat.lt_succ_self _)) (Nat.pow_le_pow_left (by decide) _))
    rw [hk, List.append_assoc, takeVarint_putVarint hlt hlk, Option.bind_some, takeSeq_put]

def fields : Format (List Field) :=
  seq (string.pair counted) fun _ h => putVarint_ne_nil _ _
    (List.append_eq_nil_iff.mp (List.append_eq_nil_iff.mp h).1).1

/-! ## Control streams -/

def refusalCode : Format RefusalCode where
  put
    | .alreadyRegistered => [0]
    | .invalidName => [1]
    | .unauthorized => [2]
    | .unsupportedVersion min max => 3 :: (u16.pair u16).put (min, max)
    | .other => [4]
  take
    | 0 :: rest => some (.alreadyRegistered, rest)
    | 1 :: rest => some (.invalidName, rest)
    | 2 :: rest => some (.unauthorized, rest)
    | 3 :: rest => ((u16.pair u16).take rest).map fun x => (.unsupportedVersion x.1.1 x.1.2, x.2)
    | 4 :: rest => some (.other, rest)
    | _ => none
  take_put c rest := by cases c <;> simp [Format.take_put]

def controlHead : Format ControlHead where
  put
    | .register version service => 0 :: (u16.pair string).put (version, service)
    | .revoke version => 1 :: u16.put version
  take
    | 0 :: rest => ((u16.pair string).take rest).map fun x => (.register x.1.1 x.1.2, x.2)
    | 1 :: rest => (u16.take rest).map fun x => (.revoke x.1, x.2)
    | _ => none
  take_put c rest := by cases c <;> simp [Format.take_put]

def certStatus : Format CertStatus where
  put
    | .pending => [0]
    | .ordering => [1]
    | .issued => [2]
    | .renewing => [3]
    | .failed => [4]
  take
    | 0 :: rest => some (.pending, rest)
    | 1 :: rest => some (.ordering, rest)
    | 2 :: rest => some (.issued, rest)
    | 3 :: rest => some (.renewing, rest)
    | 4 :: rest => some (.failed, rest)
    | _ => none
  take_put c rest := by cases c <;> rfl

def controlReply : Format ControlReply where
  put
    | .registered hostname => 0 :: string.put hostname
    | .refused code message => 1 :: (refusalCode.pair string).put (code, message)
    | .certState state => 2 :: certStatus.put state
    | .revoked => [3]
  take
    | 0 :: rest => (string.take rest).map fun x => (.registered x.1, x.2)
    | 1 :: rest => ((refusalCode.pair string).take rest).map fun x => (.refused x.1.1 x.1.2, x.2)
    | 2 :: rest => (certStatus.take rest).map fun x => (.certState x.1, x.2)
    | 3 :: rest => some (.revoked, rest)
    | _ => none
  take_put c rest := by cases c <;> simp [Format.take_put]

/-! ## Visitor streams -/

def httpHead : Format HttpHead :=
  (string.pair (string.pair (string.pair (string.pair fields)))).via
    (fun x => some ⟨x.1, x.2.1, x.2.2.1, x.2.2.2.1, x.2.2.2.2⟩)
    (fun h => (h.method, h.scheme, h.authority, h.path, h.headers)) fun _ => rfl

def responseHead : Format HttpResponseHead :=
  (u16.pair fields).via (fun x => some ⟨x.1, x.2⟩) (fun h => (h.status, h.headers)) fun _ => rfl

def head : Format Head where
  put
    | .control head => 0 :: controlHead.put head
    | .http head => 1 :: httpHead.put head
  take
    | 0 :: rest => (controlHead.take rest).map fun x => (.control x.1, x.2)
    | 1 :: rest => (httpHead.take rest).map fun x => (.http x.1, x.2)
    | _ => none
  take_put h rest := by cases h <;> simp [Format.take_put]

def bodyFrame : Format BodyFrame where
  put
    | .chunk data => 0 :: counted.put data
    | .trailers l => 1 :: fields.put l
  take
    | 0 :: rest => (counted.take rest).map fun x => (.chunk x.1, x.2)
    | 1 :: rest => (fields.take rest).map fun x => (.trailers x.1, x.2)
    | _ => none
  take_put f rest := by cases f <;> simp [Format.take_put]

def codec {α : Type} (F : Format α) : Codec α where
  encode a := .ok (F.put a)
  decode bytes := (F.decode bytes).elim (.error "Hit the end of buffer, expected more data") .ok
  decode_encode h := by
    cases h
    rw [F.decode_put]
    rfl

@[reducible] def postcard : Postcard where
  head := codec head
  controlReply := codec controlReply
  responseHead := codec responseHead
  bodyFrame := codec bodyFrame

end Formats

end TunnelWeaver.Proto
