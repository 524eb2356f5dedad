import Mathlib

/-! Hexadecimal text as bytes. Digits are read in either case and written in lower case. -/

namespace TunnelWeaver.Hex

/-- The value of a digit. -/
def value (c : UInt8) : Option UInt8 :=
  if 0x30 ≤ c ∧ c ≤ 0x39 then some (c - 0x30)
  else if 0x61 ≤ c ∧ c ≤ 0x66 then some (c - 0x61 + 10)
  else if 0x41 ≤ c ∧ c ≤ 0x46 then some (c - 0x41 + 10)
  else none

def isDigit (c : UInt8) : Bool := (value c).isSome

def digit (n : UInt8) : UInt8 := if n < 10 then 0x30 + n else 0x57 + n

/-- ASCII lower case. -/
def lower (c : UInt8) : UInt8 := if 0x41 ≤ c ∧ c ≤ 0x5a then c + 0x20 else c

def encode (bytes : List UInt8) : List UInt8 :=
  bytes.flatMap fun (b : UInt8) => [digit (b >>> 4), digit (b &&& 0xf)]

/-- Two digits a byte. -/
def decode : List UInt8 → Option (List UInt8)
  | [] => some []
  | [_] => none
  | hi :: lo :: rest => do
    let hi ← value hi
    let lo ← value lo
    let bytes ← decode rest
    return (hi <<< 4 ||| lo) :: bytes

variable {text bytes bytes' : List UInt8} {c n : UInt8}

theorem value_digit (h : n < 16) : value (digit n) = some n := by
  grind [value, digit]

theorem toNat_halves (b : UInt8) :
    (b >>> 4).toNat = b.toNat / 16 ∧ (b &&& 0xf).toNat = b.toNat % 16 := by
  constructor
  · rw [UInt8.toNat_shiftRight, show (4 : UInt8).toNat % 8 = 4 from rfl, Nat.shiftRight_eq_div_pow]
  · rw [UInt8.toNat_and, show (0xf : UInt8).toNat = 2 ^ 4 - 1 from rfl,
      Nat.and_two_pow_sub_one_eq_mod]

theorem toNat_join {hi lo : UInt8} (hhi : hi.toNat < 16) (hlo : lo.toNat < 16) :
    (hi <<< 4 ||| lo).toNat = 16 * hi.toNat + lo.toNat := by
  have hshift : hi.toNat <<< 4 % 2 ^ 8 = hi.toNat <<< 4 := by
    rw [Nat.shiftLeft_eq]
    omega
  rw [UInt8.toNat_or, UInt8.toNat_shiftLeft, show (4 : UInt8).toNat % 8 = 4 from rfl, hshift,
    ← Nat.shiftLeft_add_eq_or_of_lt hlo, Nat.shiftLeft_eq, Nat.mul_comm]

theorem value_digits (b : UInt8) :
    value (digit (b >>> 4)) = some (b >>> 4) ∧ value (digit (b &&& 0xf)) = some (b &&& 0xf) ∧
    b >>> 4 <<< 4 ||| b &&& 0xf = b := by
  obtain ⟨hhi, hlo⟩ := toNat_halves b
  have hb := b.toNat_lt
  have hhi' : (b >>> 4).toNat < 16 := by omega
  have hlo' : (b &&& 0xf).toNat < 16 := by omega
  refine ⟨value_digit (UInt8.lt_iff_toNat_lt.mpr hhi'), value_digit (UInt8.lt_iff_toNat_lt.mpr hlo'),
    UInt8.toNat_inj.mp ?_⟩
  rw [toNat_join hhi' hlo', hhi, hlo]
  omega

@[simp] theorem value_lower (c : UInt8) : value (lower c) = value c := by
  revert c
  decide +kernel

@[simp] theorem isDigit_lower (c : UInt8) : isDigit (lower c) = isDigit c := by
  rw [isDigit, value_lower, isDigit]

@[simp] theorem lower_lower (c : UInt8) : lower (lower c) = lower c := by
  grind [lower]

theorem encode_cons (b : UInt8) (bytes : List UInt8) :
    encode (b :: bytes) = digit (b >>> 4) :: digit (b &&& 0xf) :: encode bytes := rfl

@[simp] theorem length_encode (bytes : List UInt8) : (encode bytes).length = 2 * bytes.length := by
  induction bytes with
  | nil => rfl
  | cons b bytes ih =>
    rw [encode_cons, List.length_cons, List.length_cons, List.length_cons, ih]
    omega

/-- What was written is read back. -/
@[simp] theorem decode_encode (bytes : List UInt8) : decode (encode bytes) = some bytes := by
  induction bytes with
  | nil => rfl
  | cons b bytes ih =>
    obtain ⟨hhi, hlo, hb⟩ := value_digits b
    rw [encode_cons, decode, hhi, hlo, ih]
    simp [hb]

theorem encode_injective (h : encode bytes = encode bytes') : bytes = bytes' := by
  have hdecode := congrArg decode h
  rwa [decode_encode, decode_encode, Option.some.injEq] at hdecode

theorem digit_value (h : value c = some n) : digit n = lower c ∧ n < 16 := by
  unfold value at h
  split at h
  · cases h
    grind [digit, lower]
  · split at h
    · cases h
      grind [digit, lower]
    · split at h
      · cases h
        grind [digit, lower]
      · cases h

/-- A byte is read from its two halves. -/
theorem halves {hi lo : UInt8} (hhi : hi < 16) (hlo : lo < 16) :
    (hi <<< 4 ||| lo) >>> 4 = hi ∧ (hi <<< 4 ||| lo) &&& 0xf = lo := by
  have hhi : hi.toNat < 16 := UInt8.lt_iff_toNat_lt.mp hhi
  have hlo : lo.toNat < 16 := UInt8.lt_iff_toNat_lt.mp hlo
  obtain ⟨hhigh, hlow⟩ := toNat_halves (hi <<< 4 ||| lo)
  rw [toNat_join hhi hlo] at hhigh hlow
  exact ⟨UInt8.toNat_inj.mp (by omega), UInt8.toNat_inj.mp (by omega)⟩

theorem lower_digit (h : n < 16) : lower (digit n) = digit n := by
  grind [digit, lower]

theorem lower_of_mem_encode (h : c ∈ encode bytes) : lower c = c := by
  obtain ⟨b, -, hc⟩ := List.mem_flatMap.mp h
  obtain ⟨hhi, hlo, -⟩ := value_digits b
  rcases List.mem_cons.mp hc with rfl | hc
  · exact lower_digit (digit_value hhi).2
  · rw [List.mem_singleton.mp hc]
    exact lower_digit (digit_value hlo).2

@[simp] theorem map_lower_encode (bytes : List UInt8) : (encode bytes).map lower = encode bytes := by
  rw [List.map_congr_left fun c => lower_of_mem_encode, List.map_id']

/-- What was read is written back, in lower case. -/
theorem encode_of_decode (h : decode text = some bytes) : encode bytes = text.map lower := by
  induction text using decode.induct generalizing bytes with
  | case1 =>
    cases h
    rfl
  | case2 => cases h
  | case3 hi lo rest ih =>
    simp only [decode, Option.bind_eq_bind, Option.bind_eq_some_iff, Option.pure_def,
      Option.some.injEq] at h
    obtain ⟨a, hhi, b, hlo, bytes, hrest, rfl⟩ := h
    obtain ⟨hhi, ha⟩ := digit_value hhi
    obtain ⟨hlo, hb⟩ := digit_value hlo
    obtain ⟨hhigh, hlow⟩ := halves ha hb
    rw [encode_cons, hhigh, hlow, hhi, hlo, ih hrest, List.map_cons, List.map_cons]

/-- Pairs of digits are read, and nothing else. -/
theorem isSome_decode (text : List UInt8) :
    (decode text).isSome = (text.length % 2 == 0 && text.all isDigit) := by
  fun_induction decode text with
  | case1 => rfl
  | case2 c => rfl
  | case3 hi lo rest ih =>
    have hlength : (hi :: lo :: rest).length % 2 = rest.length % 2 := by
      simp only [List.length_cons]
      omega
    rw [hlength, List.all_cons, List.all_cons, isDigit, isDigit, Bool.and_left_comm,
      Bool.and_left_comm (rest.length % 2 == 0), ← ih]
    cases value hi <;> cases value lo <;> cases decode rest <;> rfl

theorem digits_injective {b b' : UInt8} (hhi : digit (b >>> 4) = digit (b' >>> 4))
    (hlo : digit (b &&& 0xf) = digit (b' &&& 0xf)) : b = b' := by
  refine List.singleton_inj.mp (encode_injective ?_)
  rw [encode_cons, encode_cons, hhi, hlo]

theorem encode_prefix_iff : encode bytes <+: encode bytes' ↔ bytes <+: bytes' := by
  induction bytes generalizing bytes' with
  | nil => exact iff_of_true (List.nil_prefix ..) (List.nil_prefix ..)
  | cons b bytes ih =>
    cases bytes' with
    | nil => simp [encode]
    | cons b' bytes' =>
      rw [encode_cons, encode_cons, List.cons_prefix_cons, List.cons_prefix_cons,
        List.cons_prefix_cons, ih, ← and_assoc]
      refine and_congr_left fun _ => ⟨fun h => digits_injective h.1 h.2, ?_⟩
      rintro rfl
      exact ⟨rfl, rfl⟩

end TunnelWeaver.Hex
