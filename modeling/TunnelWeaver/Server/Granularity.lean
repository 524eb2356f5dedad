import TunnelWeaver.Lib.I64

/-! The scale of a metrics query (`metrics.rs`). The limit on the number of slots is checked on the
length of the window, rounded up to whole slots; the series is sized from the slots of its two
ends. A window that starts inside a slot can have one slot more than the first count says. -/

namespace TunnelWeaver.Server

/-! ## The two counts -/

/-- The widest series the engine emits before coarsening the slot width. -/
def maxSlots : Nat := 500

inductive Granularity
  | minute
  | hour
  | day
  deriving DecidableEq

namespace Granularity

/-- From the finest to the coarsest. -/
def all : List Granularity := [minute, hour, day]

/-- Seconds per slot. -/
def secs : Granularity → Int
  | minute => 60
  | hour => 3600
  | day => 86400

/-- An `i64` cast to `usize`. -/
def asUsize (x : Int) : Nat := (x % 2 ^ 64).toNat

/-- Slots of the rounded-up length of a window. -/
def roundedUp (span : Int) (g : Granularity) : Nat :=
  asUsize ((I64.wrap (I64.wrap (span + g.secs) - 1)).tdiv g.secs)

/-- The finest width whose slot count is at most `maxSlots`, or days. -/
def choose (start stop : Int) : Granularity :=
  let span := max (I64.wrappingSub stop start) 1
  (all.find? fun g => roundedUp span g ≤ maxSlots).getD day

end Granularity

/-- The first slot that overlaps the window, and how many slots follow it. -/
def slotRange (start stop : Int) (g : Granularity) : Int × Nat :=
  if stop ≤ start then (start / g.secs, 0)
  else
    let first := start / g.secs
    let last := (stop - 1) / g.secs
    (first, Granularity.asUsize (last - first + 1))

namespace Granularity

theorem mem_all (g : Granularity) : g ∈ all := by
  cases g <;> decide

theorem secs_mem (g : Granularity) : 60 ≤ g.secs ∧ g.secs ≤ 86400 := by
  cases g <;> decide

theorem asUsize_of_mem {x : Int} (hmin : 0 ≤ x) (hmax : x ≤ I64.maxValue) :
    (asUsize x : Int) = x := by
  rw [I64.maxValue] at hmax
  rw [asUsize, Int.emod_eq_of_lt hmin (by omega), Int.toNat_of_nonneg hmin]

/-- Up to the largest integer, the rounded-up length is within the limit when the length is; a sum
that overflows is negative, and its count too large. -/
theorem roundedUp_le_iff {span : Int} (hpos : 1 ≤ span) (hmax : span ≤ I64.maxValue)
    (g : Granularity) : roundedUp span g ≤ maxSlots ↔ span ≤ 500 * g.secs := by
  obtain ⟨hlow, hhigh⟩ := g.secs_mem
  rw [I64.maxValue] at hmax
  have hwrap : I64.wrap (I64.wrap (span + g.secs) - 1) =
      if span + g.secs - 1 < 2 ^ 63 then span + g.secs - 1 else span + g.secs - 1 - 2 ^ 64 := by
    unfold I64.wrap
    split <;> omega
  rw [roundedUp, hwrap]
  split
  · rename_i hfit
    have hdiv : (span + g.secs - 1).tdiv g.secs = (span + g.secs - 1) / g.secs :=
      Int.tdiv_eq_ediv_of_nonneg (by omega)
    have hnonneg : 0 ≤ (span + g.secs - 1) / g.secs := Int.ediv_nonneg (by omega) (by omega)
    have hle : (span + g.secs - 1) / g.secs ≤ span + g.secs - 1 :=
      Int.ediv_le_self _ (by omega)
    have hcount := asUsize_of_mem hnonneg (by rw [I64.maxValue]; omega)
    rw [hdiv, ← Int.ofNat_le, hcount, maxSlots]
    cases g <;> simp only [secs] at * <;> omega
  · rename_i hover
    obtain ⟨y, hy⟩ : ∃ y, y = 2 ^ 64 - (span + g.secs - 1) := ⟨_, rfl⟩
    have hneg : span + g.secs - 1 - 2 ^ 64 = -y := by omega
    have hdiv : y.tdiv g.secs = y / g.secs := Int.tdiv_eq_ediv_of_nonneg (by omega)
    have hpos' : 1 ≤ y / g.secs := (Int.le_ediv_iff_mul_le (by omega)).mpr (by omega)
    have hle : y / g.secs ≤ y := Int.ediv_le_self _ (by omega)
    have hcast : -(y / g.secs) % 2 ^ 64 = 2 ^ 64 - y / g.secs := by omega
    rw [hneg, Int.neg_tdiv, hdiv, asUsize, hcast, maxSlots]
    constructor
    · intro h
      omega
    · intro h
      omega

/-! ## The choice -/

/-- The choice by the length of the window, which wraps when it exceeds the integers. -/
theorem choose_eq {start stop : Int} (hstart : I64.minValue ≤ start) (hlt : start < stop)
    (hstop : stop ≤ I64.maxValue) :
    choose start stop =
      if I64.maxValue < stop - start ∨ stop - start ≤ 500 * 60 then minute
      else if stop - start ≤ 500 * 3600 then hour else day := by
  have hspan : max (I64.wrappingSub stop start) 1 =
      if I64.maxValue < stop - start then 1 else stop - start := by
    unfold I64.wrappingSub
    split
    · rename_i hover
      have hneg : I64.wrap (stop - start) ≤ 1 := by
        unfold I64.wrap I64.minValue I64.maxValue at *
        omega
      rw [max_eq_right hneg]
    · rename_i hfit
      have hmin : I64.minValue ≤ stop - start := by
        unfold I64.minValue
        omega
      rw [I64.wrap_of_mem hmin (by omega), max_eq_left (by omega)]
  have hfind : ∀ span : Int, 1 ≤ span → span ≤ I64.maxValue →
      (all.find? fun g => roundedUp span g ≤ maxSlots).getD day =
        if span ≤ 500 * 60 then minute else if span ≤ 500 * 3600 then hour else day := by
    intro span hpos hmax
    have hiff := roundedUp_le_iff hpos hmax
    simp only [all, List.find?_cons, hiff, secs, List.find?_nil]
    by_cases hminute : span ≤ 500 * 60
    · simp only [hminute, decide_true, if_true, Option.getD_some]
    · by_cases hhour : span ≤ 500 * 3600
      · simp only [hminute, hhour, decide_true, decide_false, if_true, if_false, Option.getD_some]
      · simp only [hminute, hhour, decide_false, if_false]
        split <;> rfl
  rw [choose, hspan]
  by_cases hover : I64.maxValue < stop - start
  · rw [if_pos hover, hfind 1 le_rfl (by decide), if_pos (by decide), if_pos (.inl hover)]
  · rw [if_neg hover, hfind _ (by omega) (by omega)]
    simp only [hover, false_or]

/-- The number of slots a window overlaps. -/
theorem slotRange_count {start stop : Int} (hstart : I64.minValue ≤ start) (hlt : start < stop)
    (hstop : stop ≤ I64.maxValue) (g : Granularity) :
    ((slotRange start stop g).2 : Int) = (stop - 1) / g.secs - start / g.secs + 1 := by
  unfold I64.minValue at hstart
  unfold I64.maxValue at hstop
  rw [slotRange, if_neg (by omega)]
  refine asUsize_of_mem ?_ ?_
  · cases g <;> simp only [secs] <;> omega
  · unfold I64.maxValue
    cases g <;> simp only [secs] <;> omega

theorem slotRange_le_iff {start stop : Int} (hstart : I64.minValue ≤ start) (hlt : start < stop)
    (hstop : stop ≤ I64.maxValue) (g : Granularity) :
    (slotRange start stop g).2 ≤ maxSlots ↔ start % g.secs + (stop - start) ≤ 500 * g.secs := by
  rw [← Int.ofNat_le, slotRange_count hstart hlt hstop, maxSlots]
  cases g <;> simp only [secs] <;> omega

/-- The slots of a range are those that hold an instant of the window. -/
theorem slotRange_covers {start stop : Int} (hstart : I64.minValue ≤ start) (hlt : start < stop)
    (hstop : stop ≤ I64.maxValue) (g : Granularity) (slot : Int) :
    ((slotRange start stop g).1 ≤ slot ∧
        slot < (slotRange start stop g).1 + (slotRange start stop g).2) ↔
      ∃ t, start ≤ t ∧ t < stop ∧ t / g.secs = slot := by
  obtain ⟨hlow, -⟩ := g.secs_mem
  have hpos : 0 < g.secs := by omega
  have hfirst : (slotRange start stop g).1 = start / g.secs := by
    rw [slotRange, if_neg (by omega)]
  rw [hfirst, slotRange_count hstart hlt hstop]
  constructor
  · rintro ⟨hle, hslot⟩
    -- The instant is the start of the slot, or of the window in its first one.
    refine ⟨max start (slot * g.secs), le_max_left _ _, max_lt hlt ?_, ?_⟩
    · have hmul : slot * g.secs ≤ (stop - 1) / g.secs * g.secs :=
        Int.mul_le_mul_of_nonneg_right (by omega) (by omega)
      have := Int.ediv_mul_le (stop - 1) (by omega : g.secs ≠ 0)
      omega
    · have hdiv : slot * g.secs / g.secs = slot := Int.mul_ediv_cancel _ (by omega)
      rcases le_total start (slot * g.secs) with h | h
      · rw [max_eq_right h, hdiv]
      · have := Int.ediv_le_ediv hpos h
        rw [max_eq_left h]
        omega
  · rintro ⟨t, hst, hts, rfl⟩
    have hle := Int.ediv_le_ediv hpos hst
    have hle' := Int.ediv_le_ediv hpos (by omega : t ≤ stop - 1)
    omega

/-- The finest width within the limit, and days when there is none. -/
def IsScale (start stop : Int) (g : Granularity) : Prop :=
  (∀ g' ∈ all, g'.secs < g.secs → maxSlots < (slotRange start stop g').2) ∧
    ((slotRange start stop g).2 ≤ maxSlots ∨ g = day)

/-- Neither the length overflows, nor does the part of the first slot before the window push the
count past the limit that the length alone keeps. -/
def KeepsCount (start stop : Int) : Prop :=
  stop - start ≤ I64.maxValue ∧
    (stop - start ≤ 500 * 60 → start % 60 + (stop - start) ≤ 500 * 60) ∧
    (500 * 60 < stop - start → stop - start ≤ 500 * 3600 →
      start % 3600 + (stop - start) ≤ 500 * 3600)

theorem isScale_choose_iff {start stop : Int} (hstart : I64.minValue ≤ start)
    (hlt : start < stop) (hstop : stop ≤ I64.maxValue) :
    IsScale start stop (choose start stop) ↔ KeepsCount start stop := by
  have hcount := slotRange_le_iff hstart hlt hstop
  rw [choose_eq hstart hlt hstop, KeepsCount]
  have hnone : I64.maxValue < stop - start → ¬start % 60 + (stop - start) ≤ 500 * 60 := by
    unfold I64.maxValue
    omega
  simp only [IsScale, all, List.forall_mem_cons, ← not_le, hcount]
  split
  · simp [secs]
    omega
  · split
    · simp [secs]
      omega
    · simp [secs]
      omega

/-- Every range covers the slots its window overlaps; the width chosen is the finest within the
limit exactly for the windows whose length and slots agree about it. -/
theorem scale_respects_limit_iff (start stop : Int) (hstart : I64.minValue ≤ start)
    (hlt : start < stop) (hstop : stop ≤ I64.maxValue) :
    (IsScale start stop (choose start stop) ∧ ∀ g slot,
      ((slotRange start stop g).1 ≤ slot ∧
          slot < (slotRange start stop g).1 + (slotRange start stop g).2) ↔
        ∃ t, start ≤ t ∧ t < stop ∧ t / g.secs = slot) ↔ KeepsCount start stop := by
  rw [and_iff_left fun g slot => slotRange_covers hstart hlt hstop g slot]
  exact isScale_choose_iff hstart hlt hstop

theorem scale_respects_limit_day :
    IsScale 0 86400 (choose 0 86400) ∧ ∀ g slot,
      ((slotRange 0 86400 g).1 ≤ slot ∧
          slot < (slotRange 0 86400 g).1 + (slotRange 0 86400 g).2) ↔
        ∃ t, 0 ≤ t ∧ t < 86400 ∧ t / g.secs = slot :=
  (scale_respects_limit_iff 0 86400 (by decide) (by decide) (by decide)).mpr
    ⟨by decide, by decide, by decide⟩

/-- Five hundred minutes from the middle of a minute are 501 slots. -/
theorem choose_exceeds_limit :
    choose 30 30030 = minute ∧ (slotRange 30 30030 minute).2 = 501 ∧
      ¬IsScale 30 30030 (choose 30 30030) := by
  have hchoose : choose 30 30030 = minute := by decide
  have hcount : (slotRange 30 30030 minute).2 = 501 := by decide
  refine ⟨hchoose, hcount, fun h => ?_⟩
  rw [hchoose, IsScale, hcount] at h
  exact h.2.elim (by decide) (by decide)

end Granularity

end TunnelWeaver.Server
