import TunnelWeaver.Server.CertDates

/-! The dates of certificates, in and out: the times of their DER encoding, as `cert/acme.rs` reads
them, and the text `cert/clock.rs` prints for a timestamp. -/

namespace TunnelWeaver.Server.CertDates

open Civil (Date)
open Mux (Bytes)

/-! ## Times and their encodings -/

/-- A civil date and time of day, in UTC. -/
structure DateTime where
  date : Date
  hour : Nat
  minute : Nat
  second : Nat
  hour_lt : hour < 24
  minute_lt : minute < 60
  second_lt : second < 60

/-- The seconds from the Unix epoch. -/
def DateTime.timestamp (t : DateTime) : Int :=
  t.date.dayNumber * 86400 + (t.hour * 3600 + t.minute * 60 + t.second)

def digit (n : Nat) : UInt8 := .ofNat (0x30 + n)

def twoDigits (n : Nat) : Bytes := [n / 10, n % 10].map digit

/-- What follows the year in an encoded time. -/
def DateTime.tail (t : DateTime) : Bytes :=
  twoDigits t.date.month ++ twoDigits t.date.day ++ twoDigits t.hour ++ twoDigits t.minute ++
    twoDigits t.second ++ [0x5a]

/-- `YYMMDDHHMMSSZ` -/
def DateTime.utcTime (t : DateTime) : Bytes := twoDigits (t.date.year % 100).toNat ++ t.tail

/-- `YYYYMMDDHHMMSSZ` -/
def DateTime.generalizedTime (t : DateTime) : Bytes :=
  twoDigits (t.date.year.toNat / 100) ++ twoDigits (t.date.year.toNat % 100) ++ t.tail

/-! ## Printing -/

/-- A number at a width, as `format!` pads it with zeros. -/
def pad (width : Nat) (n : Int) : String :=
  let digits := Nat.toDigits 10 n.natAbs
  let sign := if n < 0 then ['-'] else []
  .ofList (sign ++ List.replicate (width - sign.length - digits.length) '0' ++ digits)

def dateText (y m d h min s : Int) : String :=
  pad 4 y ++ "-" ++ pad 2 m ++ "-" ++ pad 2 d ++ " " ++ pad 2 h ++ ":" ++ pad 2 min ++ ":" ++
    pad 2 s ++ " UTC"

/-- The year, the month and the day of a number of days. -/
def civilFromDays (days : Int) : Int × Nat × Nat :=
  let z := days + 719468
  let era := (if 0 ≤ z then z else z - 146096).tdiv 146097
  let doe : Nat := ((z - era * 146097) % 2 ^ 32).toNat
  let yoe : Nat := (doe - doe / 1460 + doe / 36524 - doe / 146096) / 365
  let y : Int := yoe + era * 400
  let doy : Nat := doe - (365 * yoe + yoe / 4 - yoe / 100)
  let mp : Nat := (5 * doy + 2) / 153
  let d : Nat := doy - (153 * mp + 2) / 5 + 1
  let m : Nat := if mp < 10 then mp + 3 else mp - 9
  (if m ≤ 2 then y + 1 else y, m, d)

def formatUnixTimestamp (ts : Int) : String :=
  let date := civilFromDays (ts.tdiv 86400)
  let remSecs := ts % 86400
  dateText date.1 date.2.1 date.2.2 (remSecs / 3600) (remSecs % 3600 / 60) (remSecs % 60)

/-! ## Days and dates -/

theorem tdiv_of_nonneg {x k : Int} (h : 0 ≤ x) : x.tdiv k = x / k := Int.tdiv_eq_ediv_of_nonneg h

/-- Rounding down, from rounding towards zero. -/
theorem floor_tdiv {x k : Int} (hk : 0 < k) :
    (if 0 ≤ x then x else x - (k - 1)).tdiv k = x / k := by
  split
  · exact tdiv_of_nonneg ‹_›
  · rename_i hneg
    have hflip : x - (k - 1) = -(k - 1 - x) := by omega
    have hrest : (k - 1 - x) / k = -(x / k) := by
      have hmod := Int.emod_nonneg x (Int.ne_of_gt hk)
      have hlt := Int.emod_lt_of_pos x hk
      have hdiv := Int.emod_add_mul_ediv x k
      refine (Int.ediv_emod_unique (r := k - 1 - x % k) hk |>.mpr ⟨?_, by omega, by omega⟩).1
      rw [Int.mul_neg]
      omega
    rw [hflip, Int.neg_tdiv, tdiv_of_nonneg (by omega), hrest, Int.neg_neg]

/-- Months and days counted from March on; the leap day is the last day of a year. -/
structure March where
  y : Int
  mp : Nat
  doy : Nat

def march (d : Date) : March where
  y := if d.month ≤ 2 then d.year - 1 else d.year
  mp := if 2 < d.month then d.month - 3 else d.month + 9
  doy := (153 * (if 2 < d.month then d.month - 3 else d.month + 9) + 2) / 5 + d.day - 1

/-- What a date says of its day in the year from March on. -/
theorem march_spec (d : Date) :
    (march d).doy ≤ 365 ∧ ((march d).doy = 365 → Civil.IsLeap ((march d).y + 1)) ∧
    (5 * (march d).doy + 2) / 153 = (march d).mp ∧
    (march d).doy - (153 * (march d).mp + 2) / 5 + 1 = d.day := by
  obtain ⟨year, month, day, ⟨hmonth, hmonth'⟩, hday, hday'⟩ := d
  by_cases hleap : Civil.IsLeap year
  · interval_cases month <;> simp [march, Civil.daysInMonth, hleap] at hday' ⊢ <;> omega
  · interval_cases month <;> simp [march, Civil.daysInMonth, hleap] at hday' ⊢ <;> omega

/-- The day number, by the years from March on. -/
theorem dayNumber_march (d : Date) : d.dayNumber =
    365 * (march d).y + (march d).y / 4 - (march d).y / 100 + (march d).y / 400 + (march d).doy -
      719468 := by
  obtain ⟨year, month, day, ⟨hmonth, hmonth'⟩, hday, hday'⟩ := d
  have hnext := Civil.Date.yearStart_succ year
  rw [Date.dayNumber]
  dsimp only
  rw [Civil.Date.daysBefore_eq year hmonth hmonth']
  simp only [Civil.yearStart, Civil.leapsBefore, add_sub_cancel_right] at hnext ⊢
  by_cases hleap : Civil.IsLeap year
  · rw [if_pos hleap] at hnext
    interval_cases month <;> simp [march, hleap] <;> omega
  · rw [if_neg hleap] at hnext
    interval_cases month <;> simp [march, hleap] <;> omega

theorem civilDays_eq (d : Date) : civilDays d.year d.month d.day = d.dayNumber := by
  have hy : (if (d.month : Int) ≤ 2 then d.year - 1 else d.year) = (march d).y := by
    simp only [march]
    split_ifs <;> omega
  have hmp : (if 2 < (d.month : Int) then (d.month : Int) - 3 else d.month + 9) = (march d).mp := by
    have hmonth := d.month_mem
    simp only [march]
    split_ifs <;> omega
  have hdoy : (153 * ((march d).mp : Int) + 2) / 5 + d.day - 1 = (march d).doy := by
    have hday := d.day_mem
    simp only [march]
    omega
  rw [dayNumber_march, civilDays, hy, hmp]
  have hera := floor_tdiv (x := (march d).y) (k := 400) (by decide)
  rw [show (400 : Int) - 1 = 399 from rfl] at hera
  rw [hera, tdiv_of_nonneg (by omega), tdiv_of_nonneg (by omega), tdiv_of_nonneg (by omega), hdoy]
  omega

/-- The year of a 400-year era, from the day of the era. -/
theorem year_of_day {yoe doy doe : Nat} (hyoe : yoe ≤ 399) (hdoy : doy ≤ 365)
    (hleap : doy = 365 → yoe % 4 = 3 ∧ (yoe % 100 ≠ 99 ∨ yoe = 399))
    (hdoe : doe = 365 * yoe + yoe / 4 - yoe / 100 + doy) :
    (doe - doe / 1460 + doe / 36524 - doe / 146096) / 365 = yoe := by
  obtain ⟨c, q, s, hsum, hc, hq, hs⟩ : ∃ c q s, yoe = 100 * c + 4 * q + s ∧
      c ≤ 3 ∧ q ≤ 24 ∧ s ≤ 3 :=
    ⟨yoe / 100, yoe % 100 / 4, yoe % 4, by omega, by omega, by omega, by omega⟩
  have hdays : doe = 36524 * c + 1461 * q + 365 * s + doy := by omega
  have hleap : doy = 365 → s = 3 ∧ (q ≠ 24 ∨ c = 3) := by omega
  clear hdoe hyoe
  subst hsum
  -- the last day of the era is the only one of which the centuries are not its year's
  rcases lt_or_ge doe 146096 with hlast | hlast
  · have h400 : doe / 146096 = 0 := by omega
    have h100 : doe / 36524 = c := by omega
    rw [h400, h100]
    rcases lt_or_ge (24 * c + q + 365 * s + doy) 1460 with hrest | hrest
    · have h4 : doe / 1460 = 25 * c + q := by omega
      rw [h4]
      omega
    · have h4 : doe / 1460 = 25 * c + q + 1 := by omega
      rw [h4]
      omega
  · have hlast : doe = 146096 := by omega
    subst hlast
    omega

/-- The date of a day number. -/
theorem civilFromDays_dayNumber (d : Date) :
    civilFromDays d.dayNumber = (d.year, d.month, d.day) := by
  obtain ⟨hdoy, hleap, hmp, hday⟩ := march_spec d
  have hdays := dayNumber_march d
  have hyear : (march d).y = if d.month ≤ 2 then d.year - 1 else d.year := rfl
  have hmonth : (march d).mp = if 2 < d.month then d.month - 3 else d.month + 9 := rfl
  have hera := floor_tdiv (x := d.dayNumber + 719468) (k := 146097) (by decide)
  rw [show (146097 : Int) - 1 = 146096 from rfl] at hera
  rw [civilFromDays, hera]
  generalize (march d).y = y at hdays hleap hyear
  generalize (march d).mp = mp at hmp hday hmonth
  generalize (march d).doy = doy at hdoy hleap hmp hday hdays
  obtain ⟨yoe, hyoe⟩ : ∃ yoe : Nat, (yoe : Int) = y % 400 := ⟨(y % 400).toNat, by omega⟩
  have hlast : doy = 365 → yoe % 4 = 3 ∧ (yoe % 100 ≠ 99 ∨ yoe = 399) := by
    intro h
    obtain ⟨h4, h100⟩ := hleap h
    omega
  have hz : d.dayNumber + 719468 =
      y / 400 * 146097 + (365 * yoe + yoe / 4 - yoe / 100 + doy : Nat) := by
    have h4 : y / 4 = 100 * (y / 400) + yoe / 4 := by omega
    have h100 : y / 100 = 4 * (y / 400) + yoe / 100 := by omega
    rw [hdays, h4, h100]
    omega
  have hlt : 365 * yoe + yoe / 4 - yoe / 100 + doy < 146097 := by omega
  have hdiv : (d.dayNumber + 719468) / 146097 = y / 400 := by
    rw [hz]
    omega
  have hdoe : ((d.dayNumber + 719468 - y / 400 * 146097) % 2 ^ 32).toNat =
      365 * yoe + yoe / 4 - yoe / 100 + doy := by
    rw [hz]
    omega
  have hrest : 365 * yoe + yoe / 4 - yoe / 100 + doy - (365 * yoe + yoe / 4 - yoe / 100) = doy := by
    omega
  rw [hdiv, hdoe, year_of_day (by omega) hdoy hlast rfl, hrest, hmp, hday]
  have hmonth : (if mp < 10 then mp + 3 else mp - 9) = d.month := by
    have := d.month_mem
    split at hmonth <;> split <;> omega
  rw [hmonth, Prod.mk.injEq]
  refine ⟨?_, rfl⟩
  split at hyear <;> split <;> omega

/-! ## Reading what was encoded -/

section
variable {s : Bytes} {i j n : Nat} {digits : List Nat}

theorem toNat_digit (h : n < 10) : (digit n).toNat = 0x30 + n := by
  rw [digit, UInt8.toNat_ofNat']
  omega

theorem isUtf8_of_ascii (h : ∀ b ∈ s, b.toNat < 128) : isUtf8 s = true := by
  have hchars : ∀ c ∈ (String.ofList (s.map fun b => Char.ofNat b.toNat)).toList, c.toNat < 128 := by
    intro c hc
    rw [String.toList_ofList] at hc
    obtain ⟨b, hb, rfl⟩ := List.mem_map.mp hc
    rw [Ascii.toNat_ofNat (h b hb)]
    exact h b hb
  have hbytes : s = (String.ofList (s.map fun b => Char.ofNat b.toNat)).toUTF8.toList := by
    rw [Ascii.toList_toUTF8 hchars, String.toList_ofList, List.map_map, eq_comm]
    refine (List.map_congr_left fun b hb => ?_).trans (List.map_id s)
    rw [← UInt8.toNat_inj, Function.comp_apply, Ascii.byte_toNat, Ascii.toNat_ofNat (h b hb)]
    · rfl
    · rw [Ascii.toNat_ofNat (h b hb)]
      exact h b hb
  rw [hbytes]
  exact isUtf8_toUTF8 _

theorem isCharBoundary_of_ascii (h : ∀ b ∈ s, b.toNat < 128) (hi : i ≤ s.length) :
    isCharBoundary s i = true := by
  rcases Nat.lt_or_eq_of_le hi with hlt | heq
  · have hbyte : s[i] &&& 0xc0 ≠ 0x80 := by
      intro he
      have hand := congrArg UInt8.toNat he
      have hle := Nat.and_le_left (n := s[i].toNat) (m := 0xc0)
      have hlow := h s[i] (List.getElem_mem hlt)
      rw [UInt8.toNat_and] at hand
      have h80 : (0x80 : UInt8).toNat = 128 := rfl
      have hc0 : (0xc0 : UInt8).toNat = 0xc0 := rfl
      rw [h80, hc0] at hand
      omega
    simp [isCharBoundary, List.getElem?_eq_getElem hlt, hbyte]
  · simp [isCharBoundary, heq]

theorem field_of_ascii (h : ∀ b ∈ s, b.toNat < 128) (hij : i ≤ j) (hj : j ≤ s.length) :
    field s i j = parseI64 ((s.take j).drop i) := by
  rw [field, strSlice, if_pos ⟨hij, isCharBoundary_of_ascii h (hij.trans hj),
    isCharBoundary_of_ascii h hj⟩]
  rfl

/-- Digits are read as the number they write. -/
theorem parseI64_digits (hdigits : ∀ d ∈ digits, d < 10) (hne : digits ≠ []) :
    parseI64 (digits.map digit) = .ok (digits.foldl (fun n d => 10 * n + d) 0 : Nat) := by
  have hdigit {d : Nat} (h : d < 10) : 0x30 ≤ (digit d).toNat ∧ (digit d).toNat ≤ 0x39 := by
    rw [toNat_digit h]
    omega
  have hall : (digits.map digit).all isDigit = true := by
    rw [List.all_map, List.all_eq_true]
    intro d hd
    obtain ⟨hlow, hhigh⟩ := hdigit (hdigits d hd)
    rw [Function.comp_apply, isDigit, Bool.and_eq_true, decide_eq_true_iff, decide_eq_true_iff]
    exact ⟨UInt8.le_iff_toNat_le.mpr hlow, UInt8.le_iff_toNat_le.mpr hhigh⟩
  have hvalue : ofDigits (digits.map digit) = digits.foldl (fun n d => 10 * n + d) 0 := by
    rw [ofDigits, List.foldl_map]
    refine List.foldl_ext _ _ _ fun n d hd => ?_
    rw [toNat_digit (hdigits d hd)]
    omega
  obtain ⟨d, rest, rfl⟩ := List.exists_cons_of_ne_nil hne
  have hsign {b : UInt8} (hb : b.toNat < 0x30) : digit d ≠ b := by
    intro he
    have hlow := (hdigit (hdigits d List.mem_cons_self)).1
    rw [he] at hlow
    omega
  have hunsigned : unsigned ((d :: rest).map digit) = (d :: rest).map digit := by
    rw [List.map_cons, unsigned]
    · intro rest' he
      exact hsign (by decide) (List.cons.inj he).1
    · intro rest' he
      exact hsign (by decide) (List.cons.inj he).1
  have hhead : ((d :: rest).map digit).head? ≠ some 0x2d := by
    intro he
    exact hsign (by decide) (Option.some.inj he)
  rw [parseI64, hunsigned, hall, hvalue, if_neg hhead]
  rfl

theorem parseI64_twoDigits (h : n < 100) : parseI64 (twoDigits n) = .ok n := by
  rw [twoDigits, parseI64_digits (by simp; omega) (by simp)]
  simp only [List.foldl_cons, List.foldl_nil]
  congr 2
  omega

end

namespace DateTime

variable (t : DateTime)

theorem ascii_digits {digits : List Nat} (h : ∀ d ∈ digits, d < 10) :
    ∀ b ∈ digits.map digit, b.toNat < 128 := by
  intro b hb
  obtain ⟨d, hd, rfl⟩ := List.mem_map.mp hb
  have hd := h d hd
  rw [toNat_digit hd]
  omega

theorem ascii_twoDigits {n : Nat} (h : n < 100) : ∀ b ∈ twoDigits n, b.toNat < 128 := by
  refine ascii_digits ?_
  simp
  omega

theorem date_small (d : Date) : d.month < 100 ∧ d.day < 100 := by
  have hmonth := d.month_mem.2
  have hday : d.day ≤ 31 := by
    refine d.day_mem.2.trans ?_
    unfold Civil.daysInMonth
    split
    · split <;> omega
    · split <;> omega
  omega

theorem small : t.date.month < 100 ∧ t.date.day < 100 ∧ t.hour < 100 ∧ t.minute < 100 ∧
    t.second < 100 := by
  obtain ⟨hmonth, hday⟩ := date_small t.date
  have hhour := t.hour_lt
  have hminute := t.minute_lt
  have hsecond := t.second_lt
  omega

theorem ascii_tail : ∀ b ∈ t.tail, b.toNat < 128 := by
  obtain ⟨hmonth, hday, hhour, hminute, hsecond⟩ := t.small
  simp only [tail, List.forall_mem_append, List.forall_mem_singleton]
  exact ⟨⟨⟨⟨⟨ascii_twoDigits hmonth, ascii_twoDigits hday⟩, ascii_twoDigits hhour⟩,
    ascii_twoDigits hminute⟩, ascii_twoDigits hsecond⟩, by decide⟩

/-- What follows the year is read back. -/
theorem secondsOf_tail {year : Int} (hyear : -20000 ≤ year ∧ year ≤ 20000) :
    secondsOf year t.tail = .ok (civilDays year t.date.month t.date.day * 86400 + t.hour * 3600 +
      t.minute * 60 + t.second) := by
  obtain ⟨hmonth, hday, hhour, hminute, hsecond⟩ := t.small
  have hfield {i j n : Nat} (hij : i ≤ j) (hj : j ≤ 11) (h : (t.tail.take j).drop i = twoDigits n)
      (hn : n < 100) : field t.tail i j = .ok n := by
    rw [field_of_ascii t.ascii_tail hij hj, h, parseI64_twoDigits hn]
  rw [secondsOf, hfield (by decide) (by decide) rfl hmonth, ok_bind,
    hfield (by decide) (by decide) rfl hday, ok_bind,
    hfield (by decide) (by decide) rfl hhour, ok_bind,
    hfield (by decide) (by decide) rfl hminute, ok_bind,
    hfield (by decide) (by decide) rfl hsecond, ok_bind]
  have hsmall {n : Nat} (hn : n < 100) : Small n := ⟨by omega, by omega⟩
  exact sumSeconds_eq hyear (hsmall hmonth) (hsmall hday) (hsmall hhour) (hsmall hminute)
    (hsmall hsecond)

/-- A time with a year of `digits` is read back. -/
theorem parseTime_encoded {digits : List Nat} {tag : UInt8}
    (hdigits : ∀ d ∈ digits, d < 10) (hne : digits ≠ []) (htag : tag = 0x17 ∨ tag = 0x18)
    (hend : yearEnd tag = digits.length)
    (hyear : yearOf tag (digits.foldl (fun n d => 10 * n + d) 0 : Nat) = t.date.year)
    (hrange : -20000 ≤ t.date.year ∧ t.date.year ≤ 20000) :
    parseTime (digits.map digit ++ t.tail) tag = .ok t.timestamp := by
  have hascii : ∀ b ∈ digits.map digit ++ t.tail, b.toNat < 128 :=
    List.forall_mem_append.mpr ⟨ascii_digits hdigits, t.ascii_tail⟩
  have hlength : (digits.map digit ++ t.tail).length = digits.length + 11 := by
    rw [List.length_append, List.length_map]
    rfl
  have htime : IsTime (digits.map digit ++ t.tail) tag := by
    refine ⟨htag, isUtf8_of_ascii hascii, ?_⟩
    rw [hlength, ← hend, timeLength, yearEnd]
    split <;> decide
  have hfield : field (digits.map digit ++ t.tail) 0 (yearEnd tag) =
      .ok (digits.foldl (fun n d => 10 * n + d) 0 : Nat) := by
    rw [field_of_ascii hascii (Nat.zero_le _) (by omega), hend, List.drop_zero,
      List.take_left' (List.length_map _), parseI64_digits hdigits hne]
  obtain ⟨-, h⟩ | ⟨hnot, -⟩ := parseTime_eq (digits.map digit ++ t.tail) tag
  · rw [h, hfield, ok_bind, hyear, hend, List.drop_left' (List.length_map _),
      t.secondsOf_tail hrange, civilDays_eq, timestamp]
    congr 1
    omega
  · exact absurd htime hnot

theorem parseTime_generalizedTime (h : 0 ≤ t.date.year ∧ t.date.year ≤ 9999) :
    parseTime t.generalizedTime 0x18 = .ok t.timestamp := by
  have hdigits : t.generalizedTime = ([t.date.year.toNat / 100 / 10, t.date.year.toNat / 100 % 10,
      t.date.year.toNat % 100 / 10, t.date.year.toNat % 100 % 10].map digit) ++ t.tail := rfl
  rw [hdigits]
  refine t.parseTime_encoded ?_ (List.cons_ne_nil _ _) (.inr rfl) rfl ?_ (by omega)
  · simp
    omega
  · simp only [List.foldl_cons, List.foldl_nil]
    change ((_ : Nat) : Int) = _
    omega

theorem parseTime_utcTime (h : 1950 ≤ t.date.year ∧ t.date.year ≤ 2049) :
    parseTime t.utcTime 0x17 = .ok t.timestamp := by
  have hdigits : t.utcTime = ([(t.date.year % 100).toNat / 10, (t.date.year % 100).toNat % 10].map
      digit) ++ t.tail := rfl
  rw [hdigits]
  refine t.parseTime_encoded ?_ (List.cons_ne_nil _ _) (.inl rfl) rfl ?_ (by omega)
  · simp
    omega
  · simp only [List.foldl_cons, List.foldl_nil]
    change (if 50 ≤ ((_ : Nat) : Int) then (1900 : Int) + _ else 2000 + _) = _
    split <;> omega

end DateTime

/-! ## Printing what was read -/

theorem toList_pad (width n : Nat) : (pad width n).toList =
    List.replicate (width - (Nat.toDigits 10 n).length) '0' ++ Nat.toDigits 10 n := by
  have hsign : ¬(n : Int) < 0 := by omega
  rw [pad, String.toList_ofList, if_neg hsign, Int.natAbs_natCast]
  rfl

theorem length_pad {width n : Nat} (hwidth : 0 < width) (h : n < 10 ^ width) :
    (pad width n).toList.length = width := by
  have hle := (Nat.length_toDigits_le_iff (by decide) hwidth).mpr h
  rw [toList_pad, List.length_append, List.length_replicate]
  omega

theorem pad_injective {width n n' : Nat} (h : pad width n = pad width n') : n = n' := by
  have hvalue (n : Nat) : Nat.ofDigitChars 10 (pad width n).toList 0 = n := by
    rw [toList_pad, Nat.ofDigitChars_append, Nat.ofDigitChars_replicate_zero, Nat.mul_zero,
      Nat.ofDigitChars_ten_toDigits]
  rw [← hvalue n, h, hvalue]

/-- The text of a date says the date. -/
theorem dateText_injective {y y' m m' d d' : Nat} {h min s : Int} (hm : m < 100) (hm' : m' < 100)
    (hd : d < 100) (hd' : d' < 100) (heq : dateText y m d h min s = dateText y' m' d' h min s) :
    y = y' ∧ m = m' ∧ d = d' := by
  have hlist := congrArg String.toList heq
  simp only [dateText, String.toList_append] at hlist
  have hlist := List.append_cancel_right (List.append_cancel_right (List.append_cancel_right
    (List.append_cancel_right (List.append_cancel_right (List.append_cancel_right
    (List.append_cancel_right hlist))))))
  obtain ⟨hlist, hday⟩ := List.append_inj' hlist
    ((length_pad (by decide) hd).trans (length_pad (by decide) hd').symm)
  obtain ⟨hlist, hmonth⟩ := List.append_inj' (List.append_cancel_right hlist)
    ((length_pad (by decide) hm).trans (length_pad (by decide) hm').symm)
  have hyear := List.append_cancel_right hlist
  exact ⟨pad_injective (String.toList_inj.mp hyear), pad_injective (String.toList_inj.mp hmonth),
    pad_injective (String.toList_inj.mp hday)⟩

namespace DateTime

variable (t : DateTime)

/-- The text of a time. -/
def text : String :=
  dateText t.date.year t.date.month t.date.day t.hour t.minute t.second

/-- The text with the date of the day after. -/
def nextText : String :=
  dateText t.date.next.year t.date.next.month t.date.next.day t.hour t.minute t.second

def IsMidnight : Prop := t.hour = 0 ∧ t.minute = 0 ∧ t.second = 0

/-- The date of `ts`, of which the time of day is that of `t`. -/
theorem formatUnixTimestamp_eq {d : Date} (h : t.timestamp.tdiv 86400 = d.dayNumber) :
    formatUnixTimestamp t.timestamp =
      dateText d.year d.month d.day t.hour t.minute t.second := by
  have hhour := t.hour_lt
  have hminute := t.minute_lt
  have hsecond := t.second_lt
  have hrem : t.timestamp % 86400 = t.hour * 3600 + t.minute * 60 + t.second := by
    rw [timestamp]
    omega
  have hhours : (t.hour * 3600 + t.minute * 60 + t.second : Int) / 3600 = t.hour := by omega
  have hminutes : (t.hour * 3600 + t.minute * 60 + t.second : Int) % 3600 / 60 = t.minute := by
    omega
  have hseconds : (t.hour * 3600 + t.minute * 60 + t.second : Int) % 60 = t.second := by omega
  rw [formatUnixTimestamp, h, hrem, hhours, hminutes, hseconds, civilFromDays_dayNumber]

/-- From the epoch on, and at midnight, the days of a timestamp are those of its date. -/
theorem formatUnixTimestamp_text (h : 0 ≤ t.timestamp ∨ t.IsMidnight) :
    formatUnixTimestamp t.timestamp = t.text := by
  have hhour := t.hour_lt
  have hminute := t.minute_lt
  have hsecond := t.second_lt
  refine t.formatUnixTimestamp_eq ?_
  rcases h with h | ⟨hh, hm, hs⟩
  · rw [tdiv_of_nonneg h, timestamp]
    omega
  · rw [timestamp, hh, hm, hs]
    simp

/-- Elsewhere the quotient is rounded up to the day after. -/
theorem formatUnixTimestamp_next (h : ¬(0 ≤ t.timestamp ∨ t.IsMidnight)) :
    formatUnixTimestamp t.timestamp = t.nextText := by
  have hhour := t.hour_lt
  have hminute := t.minute_lt
  have hsecond := t.second_lt
  obtain ⟨hneg, hday⟩ := not_or.mp h
  have hpos : 0 < t.hour * 3600 + t.minute * 60 + t.second := by
    refine Nat.pos_of_ne_zero fun hzero => hday ?_
    rw [IsMidnight]
    omega
  refine t.formatUnixTimestamp_eq ?_
  rw [Civil.Date.dayNumber_next, ← Int.neg_neg t.timestamp, Int.neg_tdiv,
    tdiv_of_nonneg (by omega), timestamp]
  omega

theorem nextText_ne (h : 0 ≤ t.date.year) : t.nextText ≠ t.text := by
  intro heq
  have hnext : t.date.year ≤ t.date.next.year := by
    rw [Date.next]
    split
    · exact Int.le_refl _
    · split
      · exact Int.le_refl _
      · exact Int.le_add_of_nonneg_right (by decide)
  have hyear := Int.toNat_of_nonneg h
  have hyear' := Int.toNat_of_nonneg (h.trans hnext)
  rw [text, nextText, ← hyear, ← hyear'] at heq
  obtain ⟨hmonth, hday⟩ := date_small t.date
  obtain ⟨hmonth', hday'⟩ := date_small t.date.next
  obtain ⟨hy, hm, hd⟩ := dateText_injective hmonth' hmonth hday' hday heq
  have hnumber := Civil.Date.dayNumber_next t.date
  have hsame : t.date.next.dayNumber = t.date.dayNumber := by
    rw [Date.dayNumber, Date.dayNumber, hm, hd, ← hyear', hy, hyear]
  omega

/-- The encodings of a time are read as its timestamp, which is printed as the time. -/
structure RoundTrips : Prop where
  utcTime : 1950 ≤ t.date.year ∧ t.date.year ≤ 2049 → parseTime t.utcTime 0x17 = .ok t.timestamp
  generalizedTime : parseTime t.generalizedTime 0x18 = .ok t.timestamp
  printed : formatUnixTimestamp t.timestamp = t.text

/-- A certificate's times are read right; they are printed right from the epoch on, and before it at
midnight only. -/
theorem cert_dates_round_trip (h : 0 ≤ t.date.year ∧ t.date.year ≤ 9999) :
    t.RoundTrips ↔ 0 ≤ t.timestamp ∨ t.IsMidnight := by
  constructor
  · intro htrips
    by_contra hnot
    exact t.nextText_ne h.1 ((t.formatUnixTimestamp_next hnot).symm.trans htrips.printed)
  · exact fun hprinted => ⟨t.parseTime_utcTime, t.parseTime_generalizedTime h,
      t.formatUnixTimestamp_text hprinted⟩

/-- Noon of a day before the epoch. -/
def noon1969 : DateTime where
  date := ⟨1969, 7, 20, by decide, by decide⟩
  hour := 12
  minute := 0
  second := 0
  hour_lt := by decide
  minute_lt := by decide
  second_lt := by decide

theorem cert_dates_round_trip_noon :
    (0 ≤ noon1969.date.year ∧ noon1969.date.year ≤ 9999) ∧
    ¬(0 ≤ noon1969.timestamp ∨ noon1969.IsMidnight) ∧ ¬noon1969.RoundTrips := by
  have hyear : 0 ≤ noon1969.date.year ∧ noon1969.date.year ≤ 9999 := by decide
  have hnot : ¬(0 ≤ noon1969.timestamp ∨ noon1969.IsMidnight) := by
    rw [IsMidnight]
    decide
  exact ⟨hyear, hnot, fun h => hnot ((cert_dates_round_trip noon1969 hyear).mp h)⟩

/-- It is printed with the date of the day after. -/
theorem noon_before_epoch_misprinted :
    parseTime noon1969.utcTime 0x17 = .ok noon1969.timestamp ∧
    noon1969.text = "1969-07-20 12:00:00 UTC" ∧
    formatUnixTimestamp noon1969.timestamp = "1969-07-21 12:00:00 UTC" ∧ ¬noon1969.RoundTrips := by
  have htext : noon1969.text = "1969-07-20 12:00:00 UTC" := by decide +kernel
  have hprinted : formatUnixTimestamp noon1969.timestamp = "1969-07-21 12:00:00 UTC" := by
    decide +kernel
  refine ⟨noon1969.parseTime_utcTime (by decide), htext, hprinted, fun h => ?_⟩
  have hsame := h.printed
  rw [hprinted, htext] at hsame
  simp at hsame

end DateTime

end TunnelWeaver.Server.CertDates
