import TunnelWeaver.Lib.Ascii
import TunnelWeaver.Lib.Civil
import TunnelWeaver.Proto.Policy

/-! The dates of a certificate: its validity as `cert/acme.rs` reads it from the DER bytes, and the
text of a date in the log (`cert/clock.rs`). An index, a slice or a sum that is out of range panics;
the ranges are those of a 64-bit machine with overflow checks. -/

namespace TunnelWeaver.Server.CertDates

open Mux (Bytes)

inductive Failure
  | err (message : String)
  /-- The text of the `Utf8Error` of these bytes. -/
  | notUtf8 (bytes : Bytes)
  | panicked
  deriving DecidableEq

abbrev Fallible (α : Type) := Except Failure α

def fail {α : Type} (message : String) : Fallible α := .error (.err message)

/-! ## What panics -/

def index (bytes : Bytes) (i : Nat) : Fallible UInt8 :=
  match bytes[i]? with
  | some b => .ok b
  | none => .error .panicked

def slice (bytes : Bytes) (i j : Nat) : Fallible Bytes :=
  if i ≤ j ∧ j ≤ bytes.length then .ok ((bytes.take j).drop i) else .error .panicked

/-- A sum in `usize`. -/
def usize (n : Nat) : Fallible Nat := if n < 2 ^ 64 then .ok n else .error .panicked

/-- A result in `i64`. -/
def i64 (n : Int) : Fallible Int :=
  if -2 ^ 63 ≤ n ∧ n < 2 ^ 63 then .ok n else .error .panicked

def add (a b : Int) : Fallible Int := i64 (a + b)

def sub (a b : Int) : Fallible Int := i64 (a - b)

def mul (a b : Int) : Fallible Int := i64 (a * b)

/-! ## Strings, as their UTF-8 bytes -/

/-- `str::is_char_boundary`. -/
def isCharBoundary (s : Bytes) (i : Nat) : Bool :=
  i == 0 || i == s.length || (s[i]?).any fun b => b &&& 0xc0 != 0x80

def strSlice (s : Bytes) (i j : Nat) : Fallible Bytes :=
  if i ≤ j ∧ isCharBoundary s i ∧ isCharBoundary s j then .ok ((s.take j).drop i)
  else .error .panicked

def isDigit (b : UInt8) : Bool := 0x30 ≤ b && b ≤ 0x39

/-- What a sign leaves. -/
def unsigned : Bytes → Bytes
  | 0x2b :: rest | 0x2d :: rest => rest
  | s => s

/-- The number that digits write. -/
def ofDigits (digits : Bytes) : Nat := digits.foldl (fun n b => 10 * n + (b.toNat - 0x30)) 0

/-- `i64::from_str` of at most four bytes, which never overflows. -/
def parseI64 (s : Bytes) : Fallible Int :=
  if s.isEmpty then fail "cannot parse integer from empty string"
  else if (unsigned s).isEmpty || !(unsigned s).all isDigit then fail "invalid digit found in string"
  else .ok (if s.head? = some 0x2d then -ofDigits (unsigned s) else ofDigits (unsigned s))

def field (s : Bytes) (i j : Nat) : Fallible Int := do parseI64 (← strSlice s i j)

/-! ## Times -/

/-- The year that begins in March. -/
def marchYear (year month : Int) : Fallible Int := if month ≤ 2 then sub year 1 else pure year

def marchMonth (month : Int) : Fallible Int := if 2 < month then sub month 3 else add month 9

def eraBase (y : Int) : Fallible Int := if 0 ≤ y then pure y else sub y 399

def daysFromCivil (year month day : Int) : Fallible Int := do
  let y ← marchYear year month
  let era := (← eraBase y).tdiv 400
  let yoe ← sub y (← mul era 400)
  let doy ← sub (← add ((← add (← mul 153 (← marchMonth month)) 2).tdiv 5) day) 1
  let doe ← add (← sub (← add (← mul yoe 365) (yoe.tdiv 4)) (yoe.tdiv 100)) doy
  sub (← add (← mul era 146097) doe) 719468

def fullYear (yy : Int) : Fallible Int := if 50 ≤ yy then add 1900 yy else add 2000 yy

/-- The year, and what follows it. -/
def splitYear (s : Bytes) (tag : UInt8) : Fallible (Int × Bytes) :=
  if tag = 0x17 then
    if s.length < 13 then fail "UTCTime too short"
    else do
      let yy ← field s 0 2
      return (← fullYear yy, ← strSlice s 2 s.length)
  else if tag = 0x18 then
    if s.length < 15 then fail "GeneralizedTime too short"
    else do
      let yyyy ← field s 0 4
      return (yyyy, ← strSlice s 4 s.length)
  else fail ("Unexpected time tag 0x" ++
    .ofList [Nat.digitChar (tag.toNat / 16), Nat.digitChar (tag.toNat % 16)])

def sumSeconds (year month day hour min sec : Int) : Fallible Int := do
  let days ← daysFromCivil year month day
  add (← add (← add (← mul days 86400) (← mul hour 3600)) (← mul min 60)) sec

/-- The seconds of a time, from the month on. -/
def secondsOf (year : Int) (rest : Bytes) : Fallible Int := do
  let month ← field rest 0 2
  let day ← field rest 2 4
  let hour ← field rest 4 6
  let min ← field rest 6 8
  let sec ← field rest 8 10
  sumSeconds year month day hour min sec

def isUtf8 (bytes : Bytes) : Bool := (Proto.Policy.fromUtf8 bytes).isSome

def parseTime (bytes : Bytes) (tag : UInt8) : Fallible Int :=
  if !isUtf8 bytes then .error (.notUtf8 bytes)
  else do
    let (year, rest) ← splitYear bytes tag
    secondsOf year rest

/-! ## Certificates -/

/-- The position after the length, and the length. -/
def readLength (bytes : Bytes) (lenByte : UInt8) : Fallible (Nat × Nat) :=
  if lenByte < 0x80 then .ok (2, lenByte.toNat)
  else
    let numOctets := (lenByte &&& 0x7f).toNat
    if 4 < numOctets ∨ bytes.length < 2 + numOctets then fail "Invalid ASN.1 length encoding"
    else do
      let len ← (List.range numOctets).foldlM
        (fun l i => do return l <<< 8 % 2 ^ 64 ||| (← index bytes (2 + i)).toNat) 0
      return (2 + numOctets, len)

/-- The tag, the value, and what follows them. -/
def readTlv (bytes : Bytes) : Fallible (UInt8 × Bytes × Bytes) :=
  if bytes.isEmpty then fail "Unexpected EOF in ASN.1"
  else do
    let tag ← index bytes 0
    if bytes.length ≤ 1 then fail "Unexpected EOF reading length"
    else
      let (pos, len) ← readLength bytes (← index bytes 1)
      let stop ← usize (pos + len)
      if bytes.length < stop then fail "ASN.1 length exceeds buffer"
      else return (tag, ← slice bytes pos stop, ← slice bytes stop bytes.length)

/-- The value of an element that must have this tag, and what follows it. -/
def expect (bytes : Bytes) (tag : UInt8) (message : String) : Fallible (Bytes × Bytes) := do
  let (t, val, rest) ← readTlv bytes
  if t ≠ tag then fail message else return (val, rest)

/-- The two times of a certificate, each with its tag. -/
def certTimes (certDer : Bytes) : Fallible ((UInt8 × Bytes) × UInt8 × Bytes) := do
  let (certContent, _) ← expect certDer 0x30 "Certificate is not a SEQUENCE"
  let (tbsContent, _) ← expect certContent 0x30 "TBSCertificate is not a SEQUENCE"
  let (tag, _, rest) ← readTlv tbsContent
  let (_, rest) ← expect (if tag = 0xa0 then rest else tbsContent) 0x02
    "Expected serialNumber INTEGER"
  let (_, rest) ← expect rest 0x30 "Expected signature AlgorithmIdentifier"
  let (_, rest) ← expect rest 0x30 "Expected issuer Name"
  let (validityContent, _) ← expect rest 0x30 "Expected validity SEQUENCE"
  let (tag1, nbVal, rest) ← readTlv validityContent
  let (tag2, naVal, _) ← readTlv rest
  return ((tag1, nbVal), tag2, naVal)

def parseCertValidity (certDer : Bytes) : Fallible (Int × Int) := do
  let ((tag1, nbVal), tag2, naVal) ← certTimes certDer
  let notBefore ← parseTime nbVal tag1
  let notAfter ← parseTime naVal tag2
  return (notBefore, notAfter)

/-! ## What does not panic -/

def Panics {α : Type} (x : Fallible α) : Prop := x = .error .panicked

section
variable {α β : Type} {x : Fallible α} {f : α → Fallible β}

@[simp] theorem not_panics_ok (a : α) : ¬Panics (.ok a : Fallible α) := by
  intro h
  cases h

@[simp] theorem not_panics_fail (message : String) : ¬Panics (fail message : Fallible α) := by
  intro h
  cases h

theorem panics_bind : Panics (x >>= f) ↔ Panics x ∨ ∃ a, x = .ok a ∧ Panics (f a) := by
  cases x with
  | error e => simp [Panics, bind, Except.bind]
  | ok a => simp [Panics, bind, Except.bind]

theorem not_panics_bind (hx : ¬Panics x) (hf : ∀ a, x = .ok a → ¬Panics (f a)) :
    ¬Panics (x >>= f) := by
  rw [panics_bind]
  rintro (h | ⟨a, ha, h⟩)
  · exact hx h
  · exact hf a ha h

end

variable {bytes s : Bytes} {n i j : Nat}

theorem index_of_lt (h : i < bytes.length) : ∃ b, index bytes i = .ok b := by
  rw [index, List.getElem?_eq_getElem h]
  exact ⟨_, rfl⟩

theorem not_panics_slice (hi : i ≤ j) (hj : j ≤ bytes.length) : ¬Panics (slice bytes i j) := by
  rw [slice, if_pos ⟨hi, hj⟩]
  exact not_panics_ok _

/-- The length octets are in range, and their number is small. -/
theorem lengthOctets (hn : n ≤ 4) (h : 2 + n ≤ bytes.length) :
    ∃ len, (List.range n).foldlM (m := Fallible)
      (fun l i => do return l <<< 8 % 2 ^ 64 ||| (← index bytes (2 + i)).toNat) 0 = .ok len ∧
      len < 2 ^ (8 * n) := by
  induction n with
  | zero => exact ⟨0, rfl, by decide⟩
  | succ n ih =>
    obtain ⟨len, hlen, hlt⟩ := ih (by omega) (by omega)
    have hi : 2 + n < bytes.length := by omega
    obtain ⟨b, hb⟩ := index_of_lt hi
    refine ⟨len <<< 8 % 2 ^ 64 ||| b.toNat, ?_, ?_⟩
    · rw [List.range_succ, List.foldlM_append, hlen]
      simp [bind, Except.bind, hb, pure, Except.pure]
    · have hshift : len <<< 8 < 2 ^ (8 * (n + 1)) := by
        rw [Nat.shiftLeft_eq, Nat.mul_succ 8 n, Nat.pow_add]
        exact Nat.mul_lt_mul_of_pos_right hlt (by decide)
      have hbyte : b.toNat < 2 ^ (8 * (n + 1)) :=
        Nat.lt_of_lt_of_le b.toNat_lt (Nat.pow_le_pow_right (by decide) (by omega))
      exact Nat.or_lt_two_pow (Nat.lt_of_le_of_lt (Nat.mod_le ..) hshift) hbyte

/-- A length is less than 2 to the 32. -/
theorem readLength_cases (bytes : Bytes) (lenByte : UInt8) :
    (∃ message, readLength bytes lenByte = fail message) ∨
      ∃ pos len, readLength bytes lenByte = .ok (pos, len) ∧ pos ≤ 6 ∧ len < 2 ^ 32 := by
  rw [readLength]
  split
  · exact .inr ⟨2, lenByte.toNat, rfl, by decide, by have := lenByte.toNat_lt; omega⟩
  · dsimp only
    split
    · exact .inl ⟨_, rfl⟩
    · rename_i hoctets
      obtain ⟨hn, hlength⟩ := not_or.mp hoctets
      have hn := Nat.not_lt.mp hn
      obtain ⟨len, hlen, hlt⟩ := lengthOctets hn (Nat.not_lt.mp hlength)
      rw [hlen]
      refine .inr ⟨_, len, rfl, by omega, ?_⟩
      exact Nat.lt_of_lt_of_le hlt (Nat.pow_le_pow_right (by decide) (by omega))

theorem not_panics_readTlv (bytes : Bytes) : ¬Panics (readTlv bytes) := by
  rw [readTlv]
  split
  · exact not_panics_fail _
  · rename_i hempty
    have hpos : 0 < bytes.length := List.length_pos_iff.mpr (by simpa using hempty)
    obtain ⟨tag, htag⟩ := index_of_lt hpos
    rw [htag]
    change ¬Panics (ite _ _ _)
    split
    · exact not_panics_fail _
    · rename_i hlength
      obtain ⟨lenByte, hlenByte⟩ := index_of_lt (Nat.not_le.mp hlength)
      rw [hlenByte]
      change ¬Panics (readLength bytes lenByte >>= _)
      obtain ⟨message, hread⟩ | ⟨pos, len, hread, hpos, hlen⟩ :=
        readLength_cases bytes lenByte
      · rw [hread]
        exact not_panics_fail _
      · have hstop : usize (pos + len) = .ok (pos + len) := if_pos (by omega)
        rw [hread]
        change ¬Panics (usize (pos + len) >>= _)
        rw [hstop]
        change ¬Panics (ite _ _ _)
        split
        · exact not_panics_fail _
        · rename_i hin
          refine not_panics_bind (not_panics_slice (by omega) (by omega)) fun val _ => ?_
          exact not_panics_bind (not_panics_slice (by omega) le_rfl) fun rest _ => not_panics_ok _

theorem not_panics_expect (bytes : Bytes) (tag : UInt8) (message : String) :
    ¬Panics (expect bytes tag message) := by
  refine not_panics_bind (not_panics_readTlv bytes) fun tlv _ => ?_
  change ¬Panics (ite _ _ _)
  split
  · exact not_panics_fail _
  · exact not_panics_ok _

/-- The walk to the times of a certificate never panics. -/
theorem not_panics_certTimes (certDer : Bytes) : ¬Panics (certTimes certDer) := by
  refine not_panics_bind (not_panics_expect _ _ _) fun cert _ => ?_
  refine not_panics_bind (not_panics_expect _ _ _) fun tbs _ => ?_
  refine not_panics_bind (not_panics_readTlv _) fun version _ => ?_
  refine not_panics_bind (not_panics_expect _ _ _) fun serial _ => ?_
  refine not_panics_bind (not_panics_expect _ _ _) fun signature _ => ?_
  refine not_panics_bind (not_panics_expect _ _ _) fun issuer _ => ?_
  refine not_panics_bind (not_panics_expect _ _ _) fun validity _ => ?_
  refine not_panics_bind (not_panics_readTlv _) fun notBefore _ => ?_
  exact not_panics_bind (not_panics_readTlv _) fun notAfter _ => not_panics_ok _

/-! ## Fields of a time -/

/-- A number is written in these bytes of the string. -/
def IsNumber (s : Bytes) (f : Nat × Nat) : Prop := ∃ n, field s f.1 f.2 = .ok n

/-- The first field of which the end is inside a character follows numbers. -/
def Straddles (s : Bytes) : List (Nat × Nat) → Prop
  | [] => False
  | f :: fields => isCharBoundary s f.2 = false ∨ IsNumber s f ∧ Straddles s fields

/-- The number of the bytes from `i` to `j`, when they are taken. -/
theorem field_eq (hij : i ≤ j) (hi : isCharBoundary s i = true) :
    (isCharBoundary s j = false ∧ Panics (field s i j)) ∨
      (isCharBoundary s j = true ∧ field s i j = parseI64 ((s.take j).drop i)) := by
  cases hj : isCharBoundary s j with
  | false =>
    refine .inl ⟨rfl, ?_⟩
    rw [field, strSlice, if_neg (by simp [hj])]
    rfl
  | true =>
    refine .inr ⟨rfl, ?_⟩
    rw [field, strSlice, if_pos ⟨hij, hi, hj⟩]
    rfl

theorem not_panics_parseI64 (s : Bytes) : ¬Panics (parseI64 s) := by
  rw [parseI64]
  split
  · exact not_panics_fail _
  · split
    · exact not_panics_fail _
    · exact not_panics_ok _

theorem panics_field (hij : i ≤ j) (hi : isCharBoundary s i = true) :
    Panics (field s i j) ↔ isCharBoundary s j = false := by
  obtain ⟨hj, h⟩ | ⟨hj, h⟩ := field_eq hij hi
  · exact iff_of_true h hj
  · rw [h, hj]
    exact iff_of_false (not_panics_parseI64 _) (by decide)

/-- What is left of `isCharBoundary` in the rest of a string. -/
theorem isCharBoundary_drop (hi : isCharBoundary s i = true) (hin : i ≤ s.length) (k : Nat) :
    isCharBoundary (s.drop i) k = isCharBoundary s (i + k) := by
  rcases Nat.eq_zero_or_pos k with rfl | hk
  · rw [Nat.add_zero, hi]
    rfl
  · have hlength : (k == s.length - i) = (i + k == s.length) := by
      rw [Bool.eq_iff_iff, beq_iff_eq, beq_iff_eq]
      omega
    have hzero : (k == 0) = (i + k == 0) := by
      rw [Bool.eq_iff_iff, beq_iff_eq, beq_iff_eq]
      omega
    rw [isCharBoundary, isCharBoundary, List.length_drop, List.getElem?_drop, hlength, hzero]

/-- A field of what follows is one of the string. -/
theorem field_drop (hi : isCharBoundary s n = true) (hin : n ≤ s.length) :
    field (s.drop n) i j = field s (n + i) (n + j) := by
  rw [field, field, strSlice, strSlice, isCharBoundary_drop hi hin, isCharBoundary_drop hi hin,
    List.take_drop, List.drop_drop]
  simp only [Nat.add_le_add_iff_left]

theorem length_unsigned (s : Bytes) : (unsigned s).length ≤ s.length := by
  fun_cases unsigned s <;> simp

theorem ofDigits_lt {digits : Bytes} (h : digits.all isDigit = true) :
    ofDigits digits < 10 ^ digits.length := by
  induction digits using List.reverseRecOn with
  | nil => decide
  | append_singleton digits b ih =>
    rw [List.all_append, Bool.and_eq_true] at h
    have hb : b.toNat ≤ 0x39 := by
      have hb : isDigit b = true := by simpa using h.2
      exact UInt8.le_iff_toNat_le.mp (of_decide_eq_true ((Bool.and_eq_true ..).mp hb).2)
    have ih := ih h.1
    rw [ofDigits] at ih ⊢
    rw [List.foldl_append, List.length_append, List.length_singleton, Nat.pow_succ]
    simp only [List.foldl_cons, List.foldl_nil]
    omega

/-- A number of at most four digits. -/
def Small (v : Int) : Prop := -10000 < v ∧ v < 10000

theorem parseI64_small {v : Int} (h : parseI64 s = .ok v) (hs : s.length ≤ 4) : Small v := by
  rw [parseI64] at h
  split at h
  · cases h
  · split at h
    · cases h
    · rename_i hdigits
      have hall : (unsigned s).all isDigit = true := by
        simp only [Bool.or_eq_true, not_or, Bool.not_eq_true', Bool.not_eq_false] at hdigits
        exact hdigits.2
      have hlt : ofDigits (unsigned s) < 10 ^ 4 := Nat.lt_of_lt_of_le (ofDigits_lt hall)
        (Nat.pow_le_pow_right (by decide) ((length_unsigned s).trans hs))
      have hv := Except.ok.inj h
      rw [Small]
      split at hv <;> omega

theorem field_small {v : Int} (h : field s i j = .ok v) (hij : j ≤ i + 4) : Small v := by
  rw [field, strSlice] at h
  split at h
  · refine parseI64_small h ?_
    rw [List.length_drop, List.length_take]
    omega
  · cases h

/-! ## Days -/

theorem i64_eq {x : Int} (hmin : -2 ^ 63 ≤ x) (hmax : x < 2 ^ 63) : i64 x = .ok x := if_pos ⟨hmin, hmax⟩

/-- `days_from_civil` over the integers. -/
def civilDays (year month day : Int) : Int :=
  let y := if month ≤ 2 then year - 1 else year
  let era := (if 0 ≤ y then y else y - 399).tdiv 400
  let yoe := y - era * 400
  let doy := (153 * (if 2 < month then month - 3 else month + 9) + 2).tdiv 5 + day - 1
  era * 146097 + (yoe * 365 + yoe.tdiv 4 - yoe.tdiv 100 + doy) - 719468

theorem tdiv_mem {x b : Int} (k : Int) (hmin : -b ≤ x) (hmax : x ≤ b) :
    -b ≤ x.tdiv k ∧ x.tdiv k ≤ b := by
  have habs : (x.tdiv k).natAbs ≤ x.natAbs := Int.natAbs_tdiv_le_natAbs x k
  omega

@[simp] theorem ok_bind {α β : Type} (a : α) (f : α → Fallible β) : (Except.ok a >>= f) = f a := rfl

section
variable {a b : Int}

theorem sub_eq_ok (h : -2 ^ 63 ≤ a - b) (hmax : a - b < 2 ^ 63) : sub a b = .ok (a - b) :=
  i64_eq h hmax

theorem add_eq_ok (h : -2 ^ 63 ≤ a + b) (hmax : a + b < 2 ^ 63) : add a b = .ok (a + b) :=
  i64_eq h hmax

theorem mul_eq_ok (h : -2 ^ 63 ≤ a * b) (hmax : a * b < 2 ^ 63) : mul a b = .ok (a * b) :=
  i64_eq h hmax

end

/-- No date of small numbers overflows. -/
theorem daysFromCivil_eq {year month day : Int} (hy : -20000 ≤ year ∧ year ≤ 20000)
    (hm : -10000 ≤ month ∧ month ≤ 10000) (hd : -10000 ≤ day ∧ day ≤ 10000) :
    daysFromCivil year month day = .ok (civilDays year month day) ∧
      -10 ^ 13 ≤ civilDays year month day ∧ civilDays year month day ≤ 10 ^ 13 := by
  have hyear : marchYear year month = .ok (if month ≤ 2 then year - 1 else year) := by
    rw [marchYear]
    split
    · exact sub_eq_ok (by omega) (by omega)
    · rfl
  have hmonth : marchMonth month = .ok (if 2 < month then month - 3 else month + 9) := by
    rw [marchMonth]
    split
    · exact sub_eq_ok (by omega) (by omega)
    · exact add_eq_ok (by omega) (by omega)
  have hy : -20001 ≤ (if month ≤ 2 then year - 1 else year) ∧
      (if month ≤ 2 then year - 1 else year) ≤ 20000 := by split <;> omega
  have hm : -10003 ≤ (if 2 < month then month - 3 else month + 9) ∧
      (if 2 < month then month - 3 else month + 9) ≤ 10009 := by split <;> omega
  rw [daysFromCivil, civilDays, hyear, hmonth]
  generalize (if month ≤ 2 then year - 1 else year) = y at hy ⊢
  generalize (if 2 < month then month - 3 else month + 9) = mp at hm ⊢
  have hbase : eraBase y = .ok (if 0 ≤ y then y else y - 399) := by
    rw [eraBase]
    split
    · rfl
    · exact sub_eq_ok (by omega) (by omega)
  have hera : -20400 ≤ (if 0 ≤ y then y else y - 399).tdiv 400 ∧
      (if 0 ≤ y then y else y - 399).tdiv 400 ≤ 20400 := by
    apply tdiv_mem
    · split <;> omega
    · split <;> omega
  simp only [ok_bind, hbase]
  generalize (if 0 ≤ y then y else y - 399).tdiv 400 = era at hera ⊢
  have hyoe : -10 ^ 8 ≤ y - era * 400 ∧ y - era * 400 ≤ 10 ^ 8 := by omega
  have hdoy : -10 ^ 7 ≤ 153 * mp + 2 ∧ 153 * mp + 2 ≤ 10 ^ 7 := by omega
  have hdays := tdiv_mem 5 hdoy.1 hdoy.2
  have hyoe4 := tdiv_mem 4 hyoe.1 hyoe.2
  have hyoe100 := tdiv_mem 100 hyoe.1 hyoe.2
  simp (disch := omega) only [mul_eq_ok, sub_eq_ok, add_eq_ok, ok_bind]
  exact ⟨trivial, by omega, by omega⟩

theorem sumSeconds_eq {year month day hour min sec : Int} (hyear : -20000 ≤ year ∧ year ≤ 20000)
    (hmonth : Small month) (hday : Small day) (hhour : Small hour) (hmin : Small min)
    (hsec : Small sec) : sumSeconds year month day hour min sec =
      .ok (civilDays year month day * 86400 + hour * 3600 + min * 60 + sec) := by
  unfold Small at hmonth hday hhour hmin hsec
  have hm : -10000 ≤ month ∧ month ≤ 10000 := by omega
  have hd : -10000 ≤ day ∧ day ≤ 10000 := by omega
  obtain ⟨hdays, hlow, hhigh⟩ := daysFromCivil_eq hyear hm hd
  rw [sumSeconds, hdays]
  generalize civilDays year month day = days at hlow hhigh
  simp (disch := omega) only [mul_eq_ok, add_eq_ok, ok_bind]

/-! ## What panics in a time -/

theorem panics_field_bind {α : Type} {f : Int → Fallible α} {P : Prop} (hij : i ≤ j)
    (hi : isCharBoundary s i = true)
    (h : ∀ v, field s i j = .ok v → isCharBoundary s j = true → (Panics (f v) ↔ P)) :
    Panics (field s i j >>= f) ↔ isCharBoundary s j = false ∨ IsNumber s (i, j) ∧ P := by
  rw [panics_bind, panics_field hij hi]
  cases hj : isCharBoundary s j with
  | false => exact iff_of_true (.inl rfl) (.inl rfl)
  | true =>
    refine or_congr_right ⟨?_, ?_⟩
    · rintro ⟨v, hv, hpanics⟩
      exact ⟨⟨v, hv⟩, (h v hv hj).mp hpanics⟩
    · rintro ⟨⟨v, hv⟩, hP⟩
      exact ⟨v, hv, (h v hv hj).mpr hP⟩

/-- The fields after the year. -/
def timeFields : List (Nat × Nat) := [(0, 2), (2, 4), (4, 6), (6, 8), (8, 10)]

theorem panics_secondsOf {year : Int} (hyear : -20000 ≤ year ∧ year ≤ 20000) (rest : Bytes) :
    Panics (secondsOf year rest) ↔ Straddles rest timeFields := by
  refine panics_field_bind (by decide) rfl fun month hmonth h2 => ?_
  refine panics_field_bind (by decide) h2 fun day hday h4 => ?_
  refine panics_field_bind (by decide) h4 fun hour hhour h6 => ?_
  refine panics_field_bind (by decide) h6 fun min hmin h8 => ?_
  refine panics_field_bind (by decide) h8 fun sec hsec _ => iff_of_false ?_ not_false
  rw [sumSeconds_eq hyear (field_small hmonth (by decide)) (field_small hday (by decide))
    (field_small hhour (by decide)) (field_small hmin (by decide)) (field_small hsec (by decide))]
  exact not_panics_ok _

theorem ok_field_bind {α : Type} {f : Int → Fallible α} {P : Prop}
    (h : ∀ v, field s i j = .ok v → ((∃ a, f v = .ok a) ↔ P)) :
    (∃ a, (field s i j >>= f) = .ok a) ↔ IsNumber s (i, j) ∧ P := by
  rw [IsNumber]
  cases hfield : field s i j with
  | error e =>
    refine iff_of_false ?_ (by simp)
    rintro ⟨a, ha⟩
    cases ha
  | ok v =>
    rw [ok_bind, h v hfield]
    exact (and_iff_right ⟨v, rfl⟩).symm

theorem secondsOf_ok_iff {year : Int} (hyear : -20000 ≤ year ∧ year ≤ 20000) (rest : Bytes) :
    (∃ t, secondsOf year rest = .ok t) ↔ ∀ f ∈ timeFields, IsNumber rest f := by
  simp only [timeFields, List.forall_mem_cons]
  refine ok_field_bind fun month hmonth => ?_
  refine ok_field_bind fun day hday => ?_
  refine ok_field_bind fun hour hhour => ?_
  refine ok_field_bind fun min hmin => ?_
  refine ok_field_bind fun sec hsec => iff_of_true ?_ (List.forall_mem_nil _)
  rw [sumSeconds_eq hyear (field_small hmonth (by decide)) (field_small hday (by decide))
    (field_small hhour (by decide)) (field_small hmin (by decide)) (field_small hsec (by decide))]
  exact ⟨_, rfl⟩

/-- The fields of what follows are those of the string. -/
theorem straddles_drop (hi : isCharBoundary s n = true) (hin : n ≤ s.length)
    (fields : List (Nat × Nat)) :
    Straddles (s.drop n) fields ↔ Straddles s (fields.map fun f => (n + f.1, n + f.2)) := by
  induction fields with
  | nil => rfl
  | cons f fields ih =>
    rw [List.map_cons, Straddles, Straddles, ih, isCharBoundary_drop hi hin, IsNumber, IsNumber,
      field_drop hi hin]

theorem numbers_drop (hi : isCharBoundary s n = true) (hin : n ≤ s.length)
    (fields : List (Nat × Nat)) : (∀ f ∈ fields, IsNumber (s.drop n) f) ↔
      ∀ f ∈ fields.map fun f => (n + f.1, n + f.2), IsNumber s f := by
  rw [List.forall_mem_map]
  refine forall₂_congr fun f _ => ?_
  rw [IsNumber, IsNumber, field_drop hi hin]

/-- Where the year ends. -/
def yearEnd (tag : UInt8) : Nat := if tag = 0x17 then 2 else 4

def timeLength (tag : UInt8) : Nat := if tag = 0x17 then 13 else 15

/-- The fields of a time. -/
def fieldsOf (tag : UInt8) : List (Nat × Nat) :=
  (0, yearEnd tag) :: timeFields.map fun f => (yearEnd tag + f.1, yearEnd tag + f.2)

/-- What a time is before its fields are looked at. -/
structure IsTime (bytes : Bytes) (tag : UInt8) : Prop where
  tag_mem : tag = 0x17 ∨ tag = 0x18
  isUtf8 : isUtf8 bytes = true
  length : timeLength tag ≤ bytes.length

/-- A field of the time ends inside a character, and all fields before it are numbers. -/
def TimeStraddles (bytes : Bytes) (tag : UInt8) : Prop :=
  IsTime bytes tag ∧ Straddles bytes (fieldsOf tag)

/-- All fields of the time are numbers. -/
def TimeReads (bytes : Bytes) (tag : UInt8) : Prop :=
  IsTime bytes tag ∧ ∀ f ∈ fieldsOf tag, IsNumber bytes f

/-- The year that the first field writes. -/
def yearOf (tag : UInt8) (v : Int) : Int :=
  if tag = 0x17 then if 50 ≤ v then 1900 + v else 2000 + v else v

theorem isCharBoundary_of_field {v : Int} (h : field s i j = .ok v) : isCharBoundary s j = true := by
  rw [field, strSlice] at h
  split at h
  · rename_i hslice
    exact hslice.2.2
  · cases h

theorem strSlice_rest (h : isCharBoundary s n = true) (hin : n ≤ s.length) :
    strSlice s n s.length = .ok (s.drop n) := by
  have hend : isCharBoundary s s.length = true := by simp [isCharBoundary]
  rw [strSlice, if_pos ⟨hin, h, hend⟩, List.take_length]

/-- The year of a time that is long enough, and the rest of it. -/
theorem splitYear_eq {tag : UInt8} (htag : tag = 0x17 ∨ tag = 0x18)
    (h : timeLength tag ≤ s.length) :
    splitYear s tag = (field s 0 (yearEnd tag) >>= fun v =>
      .ok (yearOf tag v, s.drop (yearEnd tag))) := by
  have hyear {yy : Int} (hyy : Small yy) :
      fullYear yy = .ok (if 50 ≤ yy then 1900 + yy else 2000 + yy) := by
    unfold Small at hyy
    rw [fullYear]
    split
    · exact i64_eq (by omega) (by omega)
    · exact i64_eq (by omega) (by omega)
  rcases htag with rfl | rfl
  · have hlength : ¬s.length < 13 := Nat.not_lt.mpr h
    rw [splitYear, if_pos rfl, if_neg hlength]
    change (field s 0 2 >>= _) = (field s 0 2 >>= _)
    cases hfield : field s 0 2 with
    | error e => rfl
    | ok yy =>
      have hrest := strSlice_rest (isCharBoundary_of_field hfield) (by omega)
      rw [ok_bind, hyear (field_small hfield (by decide)), ok_bind, hrest]
      rfl
  · have hlength : ¬s.length < 15 := Nat.not_lt.mpr h
    rw [splitYear, if_neg (by decide), if_pos rfl, if_neg hlength]
    change (field s 0 4 >>= _) = (field s 0 4 >>= _)
    cases hfield : field s 0 4 with
    | error e => rfl
    | ok yyyy =>
      have hrest := strSlice_rest (isCharBoundary_of_field hfield) (by omega)
      rw [ok_bind, hrest]
      rfl

theorem splitYear_fail {tag : UInt8} (h : ¬((tag = 0x17 ∨ tag = 0x18) ∧ timeLength tag ≤ s.length)) :
    ∃ message, splitYear s tag = fail message := by
  rw [splitYear]
  split
  · rename_i htag
    subst htag
    have hshort : s.length < 13 := Nat.not_le.mp fun hle => h ⟨.inl rfl, hle⟩
    rw [if_pos hshort]
    exact ⟨_, rfl⟩
  · split
    · rename_i htag
      subst htag
      have hshort : s.length < 15 := Nat.not_le.mp fun hle => h ⟨.inr rfl, hle⟩
      rw [if_pos hshort]
      exact ⟨_, rfl⟩
    · exact ⟨_, rfl⟩

theorem yearOf_mem {tag : UInt8} {v : Int} (h : Small v) :
    -20000 ≤ yearOf tag v ∧ yearOf tag v ≤ 20000 := by
  unfold yearOf
  unfold Small at h
  split
  · split <;> omega
  · omega

/-- A time is split before its fields are read, or is refused. -/
theorem parseTime_eq (bytes : Bytes) (tag : UInt8) :
    IsTime bytes tag ∧ parseTime bytes tag = (field bytes 0 (yearEnd tag) >>= fun v =>
      secondsOf (yearOf tag v) (bytes.drop (yearEnd tag))) ∨
    ¬IsTime bytes tag ∧ ∃ e, parseTime bytes tag = .error e ∧ e ≠ .panicked := by
  rw [parseTime]
  cases hutf8 : isUtf8 bytes with
  | false =>
    refine .inr ⟨fun h => ?_, _, rfl, by simp⟩
    rw [h.isUtf8] at hutf8
    cases hutf8
  | true =>
    rw [Bool.not_true, if_neg Bool.false_ne_true]
    by_cases hlong : (tag = 0x17 ∨ tag = 0x18) ∧ timeLength tag ≤ bytes.length
    · rw [splitYear_eq hlong.1 hlong.2, bind_assoc]
      exact .inl ⟨⟨hlong.1, hutf8, hlong.2⟩, rfl⟩
    · obtain ⟨message, hfail⟩ := splitYear_fail hlong
      rw [hfail]
      exact .inr ⟨fun h => hlong ⟨h.tag_mem, h.length⟩, _, rfl, by simp⟩

theorem yearEnd_le {tag : UInt8} (h : IsTime bytes tag) :
    yearEnd tag ≤ 0 + 4 ∧ yearEnd tag ≤ bytes.length := by
  have hlength := h.length
  rw [timeLength] at hlength
  rw [yearEnd]
  split <;> split at hlength <;> omega

theorem panics_parseTime (bytes : Bytes) (tag : UInt8) :
    Panics (parseTime bytes tag) ↔ TimeStraddles bytes tag := by
  obtain ⟨htime, h⟩ | ⟨htime, e, h, he⟩ := parseTime_eq bytes tag
  · obtain ⟨hyear, hend⟩ := yearEnd_le htime
    rw [h, TimeStraddles, and_iff_right htime, fieldsOf]
    refine panics_field_bind (Nat.zero_le _) rfl fun v hv hbound => ?_
    rw [← straddles_drop hbound hend]
    exact panics_secondsOf (yearOf_mem (field_small hv hyear)) _
  · rw [h]
    exact iff_of_false (fun hpanics => he (Except.error.inj hpanics)) fun h => htime h.1

theorem parseTime_ok_iff (bytes : Bytes) (tag : UInt8) :
    (∃ t, parseTime bytes tag = .ok t) ↔ TimeReads bytes tag := by
  obtain ⟨htime, h⟩ | ⟨htime, e, h, he⟩ := parseTime_eq bytes tag
  · obtain ⟨hyear, hend⟩ := yearEnd_le htime
    rw [h, TimeReads, and_iff_right htime, fieldsOf, List.forall_mem_cons]
    refine ok_field_bind fun v hv => ?_
    rw [← numbers_drop (isCharBoundary_of_field hv) hend]
    exact secondsOf_ok_iff (yearOf_mem (field_small hv hyear)) _
  · rw [h]
    exact iff_of_false (by simp) fun h => htime h.1

/-! ## What panics in a certificate -/

/-- The times are read one after the other. -/
theorem panics_parseCertValidity (certDer : Bytes) :
    Panics (parseCertValidity certDer) ↔ ∃ times, certTimes certDer = .ok times ∧
      (TimeStraddles times.1.2 times.1.1 ∨
        TimeReads times.1.2 times.1.1 ∧ TimeStraddles times.2.2 times.2.1) := by
  rw [parseCertValidity, panics_bind, or_iff_right (not_panics_certTimes certDer)]
  refine exists_congr fun times => and_congr_right fun _ => ?_
  change Panics (parseTime times.1.2 times.1.1 >>= _) ↔ _
  rw [panics_bind, panics_parseTime, ← parseTime_ok_iff, ← exists_and_right]
  refine or_congr_right (exists_congr fun notBefore => and_congr_right fun _ => ?_)
  rw [panics_bind, panics_parseTime, or_iff_left]
  rintro ⟨notAfter, -, h⟩
  exact not_panics_ok _ h

/-- Parsing a certificate does not panic unless a field of one of its times ends inside a character
after fields that are numbers; reading an element, and the walk to the times, never do. -/
theorem cert_parsing_panics (certDer : Bytes) :
    (∀ bytes, ¬Panics (readTlv bytes)) ∧ ¬Panics (certTimes certDer) ∧
    (¬Panics (parseCertValidity certDer) ↔
      ∀ times, certTimes certDer = .ok times →
        ¬TimeStraddles times.1.2 times.1.1 ∧
          (TimeReads times.1.2 times.1.1 → ¬TimeStraddles times.2.2 times.2.1)) := by
  refine ⟨not_panics_readTlv, not_panics_certTimes certDer, ?_⟩
  rw [panics_parseCertValidity, not_exists]
  refine forall_congr' fun times => ?_
  rw [not_and, not_or, not_and]

theorem isUtf8_toUTF8 (s : String) : isUtf8 s.toUTF8.toList = true := by
  have hbytes : ByteArray.mk s.toUTF8.toList.toArray = s.toUTF8 := by
    rw [Ascii.toList_eq]
  have hvalid : s.toUTF8.IsValidUTF8 := s.isValidUTF8
  rw [isUtf8, Proto.Policy.fromUtf8, hbytes, String.fromUTF8?, dif_pos hvalid]
  rfl

/-- A certificate that is not valid before `2é`, in the year of two bytes. -/
def accentedCert : Bytes :=
  [0x30, 0x29, 0x30, 0x27, 0x02, 0x01, 0x01, 0x30, 0x00, 0x30, 0x00, 0x30, 0x1e] ++
    [0x17, 0x0d] ++ "2é0000000000".toUTF8.toList ++ [0x17, 0x0d] ++ "2500000000000".toUTF8.toList

theorem accented_year_panics : Panics (parseCertValidity accentedCert) := by
  have hwalk : certTimes accentedCert = .ok ((0x17, "2é0000000000".toUTF8.toList),
      0x17, "2500000000000".toUTF8.toList) := by decide +kernel
  have htime : IsTime "2é0000000000".toUTF8.toList 0x17 :=
    ⟨.inl rfl, isUtf8_toUTF8 _, by decide +kernel⟩
  exact (panics_parseCertValidity accentedCert).mpr ⟨_, hwalk, .inl ⟨htime, .inl (by decide +kernel)⟩⟩

end TunnelWeaver.Server.CertDates
