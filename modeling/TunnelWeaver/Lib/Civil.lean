import Mathlib

/-! Civil dates: the proleptic Gregorian calendar, and the day numbers that count its days from
1970-01-01. -/

namespace TunnelWeaver.Civil

def IsLeap (year : Int) : Prop := year % 4 = 0 ∧ (year % 100 ≠ 0 ∨ year % 400 = 0)

instance (year : Int) : Decidable (IsLeap year) := inferInstanceAs (Decidable (_ ∧ _))

def daysInMonth (year : Int) (month : Nat) : Nat :=
  if month = 2 then if IsLeap year then 29 else 28
  else if month = 4 ∨ month = 6 ∨ month = 9 ∨ month = 11 then 30
  else 31

structure Date where
  year : Int
  month : Nat
  day : Nat
  month_mem : 1 ≤ month ∧ month ≤ 12
  day_mem : 1 ≤ day ∧ day ≤ daysInMonth year month

/-- The leap years before a year, from the year 1 on. -/
def leapsBefore (year : Int) : Int := (year - 1) / 4 - (year - 1) / 100 + (year - 1) / 400

/-- The days of a year before a month of it. -/
def daysBefore (year : Int) : (month : Nat) → Nat
  | 0 | 1 => 0
  | month + 2 => daysBefore year (month + 1) + daysInMonth year (month + 1)

/-- The days from 1970-01-01 to the first of January. -/
def yearStart (year : Int) : Int := 365 * (year - 1970) + (leapsBefore year - leapsBefore 1970)

namespace Date

variable (d : Date)

/-- The days from 1970-01-01. -/
def dayNumber : Int := yearStart d.year + daysBefore d.year d.month + (d.day - 1)

theorem daysInMonth_pos (year : Int) (month : Nat) : 1 ≤ daysInMonth year month := by
  unfold daysInMonth
  split
  · split <;> omega
  · split <;> omega

/-- The day after. -/
def next : Date :=
  if hday : d.day < daysInMonth d.year d.month then
    ⟨d.year, d.month, d.day + 1, d.month_mem, Nat.le_add_left .., hday⟩
  else if hmonth : d.month < 12 then
    ⟨d.year, d.month + 1, 1, ⟨Nat.le_add_left .., hmonth⟩, le_rfl, daysInMonth_pos ..⟩
  else ⟨d.year + 1, 1, 1, by decide, le_rfl, daysInMonth_pos ..⟩

theorem daysInMonth_of_ne {year : Int} {month : Nat} (h : month ≠ 2) (year' : Int) :
    daysInMonth year month = daysInMonth year' month := by
  rw [daysInMonth, daysInMonth, if_neg h, if_neg h]

/-- The days before a month, in a year with or without the 29th of February. -/
theorem daysBefore_eq (year : Int) {month : Nat} (h : 1 ≤ month) (h' : month ≤ 12) :
    daysBefore year month = [0, 31, 59, 90, 120, 151, 181, 212, 243, 273, 304, 334].getD (month - 1) 0
      + if IsLeap year ∧ 2 < month then 1 else 0 := by
  by_cases hleap : IsLeap year
  · interval_cases month <;> simp [daysBefore, daysInMonth, hleap]
  · interval_cases month <;> simp [daysBefore, daysInMonth, hleap]

theorem yearStart_succ (year : Int) :
    yearStart (year + 1) = yearStart year + if IsLeap year then 366 else 365 := by
  have hleaps : leapsBefore (year + 1) = leapsBefore year + if IsLeap year then 1 else 0 := by
    simp only [leapsBefore, add_sub_cancel_right]
    by_cases hleap : IsLeap year
    · rw [if_pos hleap]
      obtain ⟨h4, h100⟩ := hleap
      omega
    · rw [if_neg hleap]
      have h4 : ¬(year % 4 = 0 ∧ (year % 100 ≠ 0 ∨ year % 400 = 0)) := hleap
      omega
  rw [yearStart, yearStart, hleaps]
  split <;> omega

theorem dayNumber_epoch : (⟨1970, 1, 1, by decide, by decide⟩ : Date).dayNumber = 0 := by decide

/-- The numbers count the days. -/
theorem dayNumber_next : d.next.dayNumber = d.dayNumber + 1 := by
  obtain ⟨year, month, day, ⟨hmonth, hmonth'⟩, hday, hday'⟩ := d
  rw [next]
  split
  · simp only [dayNumber]
    omega
  · rename_i hlast
    have hlast : day = daysInMonth year month := by
      dsimp only at hlast
      omega
    split
    · obtain ⟨m, rfl⟩ := Nat.exists_eq_add_of_le' hmonth
      simp only [dayNumber, daysBefore]
      omega
    · rename_i hdec
      have hdec : month = 12 := by
        dsimp only at hdec
        omega
      subst hdec hlast
      have hdays : daysBefore year 12 = 334 + if IsLeap year then 1 else 0 := by
        simpa using daysBefore_eq year hmonth hmonth'
      have hmonth : daysInMonth year 12 = 31 := rfl
      have hjanuary : daysBefore (year + 1) 1 = 0 := rfl
      dsimp only [dayNumber]
      rw [yearStart_succ, hdays, hmonth, hjanuary]
      split <;> omega

end Date

end TunnelWeaver.Civil
