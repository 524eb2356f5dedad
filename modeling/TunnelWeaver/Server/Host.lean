import TunnelWeaver.Client.Origin
import TunnelWeaver.Lib.Ascii
import TunnelWeaver.Server.Visitor

/-! The host that a visitor's request names (`edge/host.rs`). -/

namespace TunnelWeaver.Client
open Ascii (Printable byte)

/-! ## Printable text -/

theorem lossyChars_ascii {l : List Char} (h : ∀ c ∈ l, c.toNat < 128) :
    ∀ {fuel : Nat}, l.length ≤ fuel → lossyChars fuel (l.map byte) = l := by
  induction l with
  | nil =>
    intro fuel _
    cases fuel <;> rfl
  | cons c l ih =>
    intro fuel hfuel
    cases fuel with
    | zero => cases hfuel
    | succ fuel =>
      have hc := h c List.mem_cons_self
      have hlow : byte c < 0x80 := by
        rw [UInt8.lt_iff_toNat_lt, Ascii.byte_toNat hc]
        exact hc
      have hrest : utf8Rest (byte c) (l.map byte) = [] := by
        rw [utf8Rest, utf8CharWidth, if_pos hlow]
        rfl
      have htail := ih (fun d hd => h d (List.mem_cons_of_mem c hd)) (Nat.le_of_succ_le_succ hfuel)
      rw [List.map_cons, lossyChars, hrest, Proto.Policy.fromUtf8, Ascii.fromUTF8?_byte hc]
      simpa using htail

/-- Reading ASCII text back gives the text. -/
theorem fromUtf8Lossy_toUTF8 {s : String} (h : ∀ c ∈ s.toList, c.toNat < 128) :
    fromUtf8Lossy s.toUTF8.toList = s := by
  rw [fromUtf8Lossy, Ascii.toList_toUTF8 h, List.length_map, lossyChars_ascii h le_rfl,
    String.ofList_toList]

/-- The characters of ASCII bytes. -/
theorem toList_fromUtf8Lossy {bytes : Mux.Bytes} (h : ∀ b ∈ bytes, b.toNat < 128) :
    (fromUtf8Lossy bytes).toList = bytes.map fun b => Char.ofNat b.toNat := by
  have hbytes : (bytes.map fun b => Char.ofNat b.toNat).map byte = bytes := by
    rw [List.map_map]
    refine (List.map_congr_left fun b hb => ?_).trans (List.map_id bytes)
    have hchar := Ascii.toNat_ofNat (h b hb)
    apply UInt8.toNat_inj.mp
    rw [Function.comp_apply, Ascii.byte_toNat (hchar.symm ▸ h b hb), hchar, id]
  have hascii : ∀ c ∈ bytes.map fun b => Char.ofNat b.toNat, c.toNat < 128 := by
    intro c hc
    obtain ⟨b, hb, rfl⟩ := List.mem_map.mp hc
    exact (Ascii.toNat_ofNat (h b hb)).symm ▸ h b hb
  have hlossy := lossyChars_ascii hascii le_rfl
  rw [hbytes, List.length_map] at hlossy
  rw [fromUtf8Lossy, hlossy, String.toList_ofList]

end TunnelWeaver.Client

namespace TunnelWeaver.Server

open Ascii (Printable)
open Mux (Bytes)
open Proto (eqIgnoreAsciiCase)

/-- The text of an address. -/
theorem IpAddr.printable_text (ip : IpAddr) : Printable ip.text := by
  have hdotted (a b c d : UInt8) : Printable (dotted a b c d) := by
    refine .intercalate (by decide) fun part hpart => ?_
    obtain ⟨octet, -, rfl⟩ := List.mem_map.mp hpart
    exact Ascii.printable_toDigits (by decide) octet.toNat
  have hsegments (segments : List UInt16) : Printable (hexSegments segments) := by
    refine .intercalate (by decide) fun part hpart => ?_
    obtain ⟨segment, -, rfl⟩ := List.mem_map.mp hpart
    exact Ascii.printable_toDigits (by decide) segment.toNat
  unfold text
  split
  · exact hdotted _ _ _ _
  · split
    · exact hdotted _ _ _ _
    · unfold colons
      dsimp only
      split
      · exact ((hsegments _).append (by decide)).append (hsegments _)
      · exact hsegments _

/-! ## Hosts -/

/-- Why a request has no usable host. -/
inductive HostError where
  /-- Neither a `Host` header nor an authority in the request-target. -/
  | missing
  /-- More than one `Host` line. -/
  | duplicate
  /-- Not `uri-host [ ":" port ]`. -/
  | invalid
  /-- A `host` header that names another authority than `:authority`. -/
  | mismatch
  deriving DecidableEq

def isDigitByte (b : UInt8) : Bool := 48 ≤ b && b ≤ 57

/-- Letters, digits, `.`, `-` and `_`. -/
def isNameByte (b : UInt8) : Bool :=
  isDigitByte b || 65 ≤ b && b ≤ 90 || 97 ≤ b && b ≤ 122 || b == 46 || b == 45 || b == 95

/-- Hexadecimal digits, `:` and `.`. -/
def isLiteralByte (b : UInt8) : Bool :=
  isDigitByte b || 65 ≤ b && b ≤ 70 || 97 ≤ b && b ≤ 102 || b == 58 || b == 46

/-- The host, in brackets or up to the first colon, and what comes after its colon. -/
def splitHost : Bytes → Option (Bytes × Option Bytes)
  | 91 :: rest =>
    let literal := rest.takeWhile (· != 93)
    if literal = [] ∨ literal.all isLiteralByte = false then none
    else match rest.drop literal.length with
      | [93] => some (91 :: (literal ++ [93]), none)
      | 93 :: 58 :: port => some (91 :: (literal ++ [93]), some port)
      | _ => none
  | raw =>
    match raw.dropWhile (· != 58) with
    | [] => some (raw, none)
    | _ :: port => some (raw.takeWhile (· != 58), some port)

def isPort (port : Bytes) : Bool :=
  port != [] && decide (port.length ≤ 5) && port.all isDigitByte

def parseHostValue (raw : Bytes) : Option String :=
  match splitHost raw with
  | none => none
  | some (host, port) =>
    if host = [] ∨ 255 < host.length then none
    else if host.head? ≠ some 91 ∧ host.all isNameByte = false then none
    else if port.any (!isPort ·) then none
    else some (Client.fromUtf8Lossy host)

/-- The host of a request whose target has this authority. -/
def requestHost (req : VisitorRequest) (authority : Option Bytes) : Except HostError String :=
  let hostLines := req.headers.getAll "host"
  if 1 < hostLines.length then .error .duplicate
  else match hostLines.head?.map parseHostValue, authority.map parseHostValue with
    | some none, _ | _, some none => .error .invalid
    | some (some header), some (some target) =>
      if req.version = .http2 ∧ eqIgnoreAsciiCase target header = false then .error .mismatch
      else .ok target
    | none, some (some target) => .ok target
    | some (some header), none => .ok header
    | none, none => .error .missing

theorem byte_bounds {b : UInt8} (h : isNameByte b = true ∨ isLiteralByte b = true ∨ b = 91 ∨ b = 93) :
    32 ≤ b.toNat ∧ b.toNat < 127 := by
  simp only [isNameByte, isLiteralByte, isDigitByte, Bool.or_eq_true, Bool.and_eq_true,
    decide_eq_true_eq, beq_iff_eq, UInt8.le_iff_toNat_le, ← UInt8.toNat_inj] at h
  simp only [UInt8.reduceToNat] at h
  omega

/-- A bracketed host is made of the bytes of a literal. -/
theorem bytes_of_splitHost {raw host : Bytes} {port : Option Bytes}
    (h : splitHost raw = some (host, port)) (hhead : host.head? = some 91) :
    ∀ b ∈ host, isLiteralByte b = true ∨ b = 91 ∨ b = 93 := by
  have hliteral {literal : Bytes} (hall : ¬(literal = [] ∨ literal.all isLiteralByte = false)) :
      ∀ b ∈ 91 :: (literal ++ [93]), isLiteralByte b = true ∨ b = 91 ∨ b = 93 := by
    intro b hb
    rw [not_or, Bool.not_eq_false, List.all_eq_true] at hall
    rcases List.mem_cons.mp hb with rfl | hb
    · exact .inr (.inl rfl)
    · rcases List.mem_append.mp hb with hb | hb
      · exact .inl (hall.2 b hb)
      · exact .inr (.inr (List.mem_singleton.mp hb))
  unfold splitHost at h
  split at h
  · dsimp only at h
    split at h
    · cases h
    · next hall =>
      split at h
      · cases h
        exact hliteral hall
      · cases h
        exact hliteral hall
      · cases h
  · next hother =>
    split at h
    · cases h
      obtain ⟨rest, hrest⟩ := List.head?_eq_some_iff.mp hhead
      exact (hother rest hrest).elim
    · cases h
      rw [List.head?_takeWhile, Option.filter_eq_some_iff] at hhead
      obtain ⟨rest, hrest⟩ := List.head?_eq_some_iff.mp hhead.1
      exact (hother rest hrest).elim

/-- The edge only takes hosts of printable ASCII. -/
theorem printable_of_parseHostValue {raw : Bytes} {host : String}
    (h : parseHostValue raw = some host) : Printable host := by
  unfold parseHostValue at h
  split at h
  · cases h
  · next bytes port hsplit =>
    split at h
    · cases h
    · split at h
      · cases h
      · next hname =>
        split at h
        · cases h
        · cases h
          have hbounds : ∀ b ∈ bytes, 32 ≤ b.toNat ∧ b.toNat < 127 := by
            intro b hb
            apply byte_bounds
            by_cases hhead : bytes.head? = some 91
            · exact .inr (bytes_of_splitHost hsplit hhead b hb)
            · rw [not_and, Bool.not_eq_false] at hname
              exact .inl (List.all_eq_true.mp (hname hhead) b hb)
          intro c hc
          rw [Client.toList_fromUtf8Lossy fun b hb => Nat.lt_succ_of_lt (hbounds b hb).2] at hc
          obtain ⟨b, hb, rfl⟩ := List.mem_map.mp hc
          rw [Ascii.toNat_ofNat (Nat.lt_succ_of_lt (hbounds b hb).2)]
          exact hbounds b hb

theorem printable_of_requestHost {req : VisitorRequest} {authority : Option Bytes} {host : String}
    (h : requestHost req authority = .ok host) : Printable host := by
  have hparsed {raw : Option Bytes} (hraw : raw.map parseHostValue = some (some host)) :
      Printable host := by
    obtain ⟨value, -, hvalue⟩ := Option.map_eq_some_iff.mp hraw
    exact printable_of_parseHostValue hvalue
  unfold requestHost at h
  dsimp only at h
  split at h
  · cases h
  · split at h
    · cases h
    · cases h
    · next hauthority =>
      split at h
      · cases h
      · cases h
        exact hparsed hauthority
    · next hauthority =>
      cases h
      exact hparsed hauthority
    · next hheader _ =>
      cases h
      exact hparsed hheader
    · cases h

end TunnelWeaver.Server
