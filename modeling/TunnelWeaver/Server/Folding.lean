import TunnelWeaver.Server.Flushing
import TunnelWeaver.Server.OpenTime

/-! Folding. A day moves from memory through its live row into its rollup row, and the rollup write
is absolute as the slot write is. Nothing is lost as long as no flush writes a minute of a day that
is already folded: such a flush makes a second live row of the day, with the late minutes alone,
and the next fold replaces the whole day by it. It happens when the flush of midnight fails and the
fold after it succeeds. -/

namespace TunnelWeaver.Server

open Automaton (run Meets run_invariant_of_meets)

/-- The sum over the minutes of a day. -/
def overDay (f : Int → Int) (day : Int) : Int :=
  ((List.range minutesPerDay).map fun i : Nat => f (day * minutesPerDay + i)).sum

theorem overDay_add (f g : Int → Int) (day : Int) :
    overDay (fun m => f m + g m) day = overDay f day + overDay g day :=
  List.sum_map_add

theorem overDay_congr {f g : Int → Int} {day : Int} (h : ∀ m, dayOf m = day → f m = g m) :
    overDay f day = overDay g day := by
  refine congrArg List.sum (List.map_congr_left fun i hi => ?_)
  exact h _ (dayOf_mul_add day (List.mem_range.mp hi))

theorem overDay_eq_zero {f : Int → Int} {day : Int} (h : ∀ m, dayOf m = day → f m = 0) :
    overDay f day = 0 := by
  rw [overDay_congr (g := fun _ => 0) h]
  exact List.sum_map_zero

section
variable [BlobCodec]

/-- The sum of the folded minutes of a day. -/
def UsageStore.foldedDay (st : UsageStore) (s : ServiceId) (day : Int) (k : Slots) : Int :=
  match st.daily.lookup (s, day) with
  | some row => (row.array k).sum
  | none => 0

theorem UsageStore.foldedDay_eq {st : UsageStore} {s : ServiceId} {day : Int} {k : Slots}
    (h : ∀ {row}, st.daily.lookup (s, day) = some row → (row.array k).length = minutesPerDay) :
    st.foldedDay s day k = overDay (fun m => st.folded s m k) day := by
  cases hrow : st.daily.lookup (s, day) with
  | none =>
    have hzero : overDay (fun m => st.folded s m k) day = overDay (fun _ => 0) day := by
      refine overDay_congr fun m hm => ?_
      rw [folded, hm, hrow]
    rw [hzero, foldedDay, hrow]
    simp [overDay]
  | some row =>
    have harray : row.array k = (List.range minutesPerDay).map fun i : Nat =>
        st.folded s (day * minutesPerDay + i) k := by
      refine List.ext_getElem (by simp [h hrow]) fun i hi hi' => ?_
      have hlt : i < minutesPerDay := by simpa using hi'
      have hfolded : st.folded s (day * minutesPerDay + i) k = row.minute k i := by
        rw [folded, dayOf_mul_add day hlt, hrow, slotOf_mul_add day hlt]
      rw [List.getElem_map, List.getElem_range, hfolded, UsageDaily.minute,
        List.getElem?_eq_getElem hi, Option.getD_some]
    rw [foldedDay, hrow]
    exact congrArg List.sum harray

namespace Meter
variable {w w' w₀ : Meter} {s : ServiceId} {m : Int} {k : Slots} {a : Act} {l : List Act}

/-- Flushes write into empty slots, of days that are not folded; counters stay in the range of a
slot; and no tick is older than a mark. -/
def FoldGuard (w : Meter) (a : Act) : Prop := w.FlushGuard a ∧ w.OpenGuard a

instance : Decidable (FoldGuard w a) := inferInstanceAs (Decidable (_ ∧ _))

/-- Every metric of every service that exists is accounted for, on the days inside the retention;
and rollup rows have a value for every minute. -/
structure Folds (w : Meter) : Prop where
  exact : w.Exact
  counters : ∀ {s m k}, k ≠ .openMs → s ∈ w.store.services → w.cutoffDay ≤ dayOf m →
    w.Accounted s m k
  whole : ∀ {p row}, w.store.daily.lookup p = some row → ∀ k, (row.array k).length = minutesPerDay

theorem Folds.accounted (h : w.Folds) (hs : s ∈ w.store.services) (hday : w.cutoffDay ≤ dayOf m)
    (k : Slots) : w.Accounted s m k := by
  by_cases hk : k = .openMs
  · subst hk
    exact h.exact.accounted hs hday
  · exact h.counters hk hs hday

theorem Folds.step (h : w.Folds) (hg : w.FoldGuard a) (hstep : w.step a = some w') :
    w'.Folds := by
  refine ⟨h.exact.step hg.2 hstep, fun hk hs hday => ?_, fun hrow k => ?_⟩
  · have hs' := services_of_step hstep hs
    have hacc := h.counters hk hs' ((cutoffDay_le_of_step hstep).trans hday)
    exact hacc.step hs (fun _ => hday) (h.exact.apart _ _ hs') (hg.1.fits hk hacc.bound)
      (hg.1.findsEmpty hs' hk) hstep
  · rcases lookup_daily_of_step hstep hrow with hrow | ⟨-, cells, -, rfl⟩
    · exact h.whole hrow k
    · simp

theorem Initial.folds (h : w.Initial) : w.Folds := by
  refine ⟨⟨h.clocked, h.apart, fun _ _ => h.accounted⟩, fun _ _ _ => h.accounted, fun hrow => ?_⟩
  rw [h.daily] at hrow
  cases hrow

/-- In every run whose flushes write empty slots of days that are not folded, folding loses
nothing: for every service that exists and every day inside the retention, the folded minutes, the
slots and the buckets of the day add up to what was observed, and no day is both live and
folded. -/
theorem folding_loses_nothing (h : w₀.Initial) (hm : Meets Meter.step FoldGuard w₀ l)
    (hrun : run Meter.step w₀ l = some w) :
    (∀ s ∈ w.store.services, ∀ day, w.cutoffDay ≤ day → ∀ k,
      w.store.foldedDay s day k + overDay (fun m => w.store.slot s m k) day +
        overDay (fun m => w.mem.held s m k + w.flying s m k) day =
        overDay (fun m => w.observed s m k) day) ∧
    ∀ s ∈ w.store.services, ∀ day, ¬((s, day) ∈ w.store.live ∧ (s, day) ∈ w.store.daily) := by
  have hfolds : w.Folds := run_invariant_of_meets Folds.step hm h.folds hrun
  refine ⟨fun s hs day hday k => ?_, fun s hs day hboth => ?_⟩
  · rw [UsageStore.foldedDay_eq fun hrow => hfolds.whole hrow k, ← overDay_add, ← overDay_add]
    refine overDay_congr fun m hm => ?_
    have htotal := (hfolds.accounted hs (m := m) (hm ▸ hday) k).total
    omega
  · exact hfolds.exact.apart s day hs hboth.1 hboth.2

theorem observed_of_step (h : w.step a = some w') :
    w'.observed s m k = w.observed s m k + w.reports a s m k := by
  obtain ⟨v, -, rfl⟩ := Option.map_eq_some_iff.mp h
  rfl

/-- A run observes what its steps report. -/
theorem run_observed {r : Act → Int} (hr : ∀ a ∈ l, ∀ w : Meter, w.reports a s m k = r a)
    (h : run Meter.step w l = some w') :
    w'.observed s m k = w.observed s m k + (l.map r).sum := by
  induction l generalizing w with
  | nil =>
    cases h
    exact (Int.add_zero _).symm
  | cons a l ih =>
    obtain ⟨v, hv, h⟩ := Automaton.run_cons_eq_some.mp h
    rw [ih (fun b hb => hr b (List.mem_cons_of_mem a hb)) h, observed_of_step hv,
      hr a List.mem_cons_self, List.map_cons, List.sum_cons, Int.add_assoc]

/-- The metering task itself observes open time only. -/
theorem taskRun_observed {tick : Int} {stored : Bool} (hk : k ≠ .openMs)
    (h : w.taskRun tick stored = some w') : w'.observed s m k = w.observed s m k := by
  obtain ⟨v, hv, h⟩ := Option.bind_eq_some_iff.mp h
  have hmaintain : ∀ a ∈ v.maintain, ∀ w : Meter, w.reports a s m k = 0 := by
    intro a ha w
    rcases List.mem_append.mp ha with ha | ha
    · obtain ⟨day, -, rfl⟩ := List.mem_map.mp ha
      rfl
    · rw [List.mem_singleton.mp ha]
      rfl
  have hflush : ∀ a ∈ [Act.tick (tick * 1000), .drain (tick * 1000),
      if stored then .write w.flights.length else .fail w.flights.length],
      ∀ w : Meter, w.reports a s m k = 0 := by
    intro a ha w
    simp only [List.mem_cons, List.not_mem_nil, or_false] at ha
    rcases ha with rfl | rfl | rfl
    · cases k <;> first | rfl | exact absurd rfl hk
    · rfl
    · cases stored <;> rfl
  rw [run_observed hmaintain h, run_observed hflush hv]
  simp

end Meter

end

namespace Sample

/-- Two days of traffic, each minute flushed on time and the first day folded. -/
def twoDays : List Act :=
  [.advance 86340000, .observe (.visitorServiceBytes 1 10 0) 86340000, .advance 60000,
    .tick 86400000, .drain 86400000, .write 0, .foldDay 0, .sweep]

/-- The flush of 23:58 is stored. The flush of midnight fails, and the day is folded; the next
flush stores its last minute, and the day is folded again. -/
def midnight : Option Meter :=
  (run Meter.step start [.advance 86280000, .observe (.visitorServiceBytes 1 10 0) 86280000,
    .advance 60000]).bind fun w => (w.taskRun 86340 true).bind fun w =>
  (run Meter.step w [.observe (.visitorServiceBytes 1 5 0) 86340000, .advance 60000]).bind
    fun w => (w.taskRun 86400 false).bind fun w =>
  (run Meter.step w [.advance 60000]).bind fun w => w.taskRun 86460 true

/-- Everything observed is of the two reports. -/
theorem observed_midnight {w : Meter} (h : midnight = some w) (m : Int) :
    w.observed 1 m .bytesIn = (if m = 1438 then 10 else 0) + (if m = 1439 then 5 else 0) := by
  obtain ⟨w₁, h₁, h⟩ := Option.bind_eq_some_iff.mp h
  obtain ⟨w₂, h₂, h⟩ := Option.bind_eq_some_iff.mp h
  obtain ⟨w₃, h₃, h⟩ := Option.bind_eq_some_iff.mp h
  obtain ⟨w₄, h₄, h⟩ := Option.bind_eq_some_iff.mp h
  obtain ⟨w₅, h₅, h⟩ := Option.bind_eq_some_iff.mp h
  have hfirst := Meter.run_observed (s := 1) (m := m) (k := .bytesIn)
    (r := fun a => if a matches .observe .. then if m = 1438 then 10 else 0 else 0)
    (by simp [Meter.reports, Observation.reported, Observation.service, Observation.amount,
      minuteOf, minuteMs]) h₁
  have hsecond := Meter.run_observed (s := 1) (m := m) (k := .bytesIn)
    (r := fun a => if a matches .observe .. then if m = 1439 then 5 else 0 else 0)
    (by simp [Meter.reports, Observation.reported, Observation.service, Observation.amount,
      minuteOf, minuteMs]) h₃
  have hwait := Meter.run_observed (s := 1) (m := m) (k := .bytesIn) (r := fun _ => 0)
    (by simp [Meter.reports]) h₅
  rw [Meter.taskRun_observed (by decide) h, hwait, Meter.taskRun_observed (by decide) h₄, hsecond,
    Meter.taskRun_observed (by decide) h₂, hfirst]
  simp [start]

end Sample

open Sample in
theorem folding_loses_nothing_twoDays :
    ∃ w, run Meter.step start twoDays = some w ∧ (1, 0) ∈ w.store.daily ∧
      w.store.foldedDay 1 0 .bytesIn + overDay (fun m => w.store.slot 1 m .bytesIn) 0 +
        overDay (fun m => w.mem.held 1 m .bytesIn + w.flying 1 m .bytesIn) 0 =
        overDay (fun m => w.observed 1 m .bytesIn) 0 := by
  obtain ⟨w, hw, h⟩ := (Option.any_eq_true (fun w : Meter =>
    decide ((1, 0) ∈ w.store.daily) && decide (1 ∈ w.store.services) &&
      decide (w.cutoffDay ≤ 0)) (run Meter.step start twoDays)).mp (by decide +kernel)
  simp only [Bool.and_eq_true, decide_eq_true_eq] at h
  exact ⟨w, hw, h.1.1,
    (Meter.folding_loses_nothing start_initial (by decide +kernel) hw).1 1 h.1.2 0 h.2 .bytesIn⟩

open Sample in
/-- Of the 15 bytes of the day, the 10 that were stored before midnight are gone. -/
theorem failed_midnight_flush_loses_day :
    ∃ w, midnight = some w ∧ 1 ∈ w.store.services ∧ w.cutoffDay ≤ 0 ∧
      w.store.foldedDay 1 0 .bytesIn + overDay (fun m => w.store.slot 1 m .bytesIn) 0 +
        overDay (fun m => w.mem.held 1 m .bytesIn + w.flying 1 m .bytesIn) 0 ≠
        overDay (fun m => w.observed 1 m .bytesIn) 0 := by
  obtain ⟨w, hw, h⟩ := (Option.any_eq_true (fun w : Meter =>
    decide (1 ∈ w.store.services) && decide (w.cutoffDay ≤ 0) &&
      decide (w.store.foldedDay 1 0 .bytesIn = 5) && decide ((1, 0) ∉ w.store.live) &&
      w.mem.buckets.entries.isEmpty && w.flights.isEmpty) midnight).mp (by decide +kernel)
  simp only [Bool.and_eq_true, decide_eq_true_eq, List.isEmpty_iff] at h
  obtain ⟨⟨⟨⟨⟨hmem, hday⟩, hfolded⟩, hlive⟩, hheld⟩, hflying⟩ := h
  have hslots : overDay (fun m => w.store.slot 1 m .bytesIn) 0 = 0 := by
    refine overDay_eq_zero fun m hm => ?_
    rw [UsageStore.slot, LiveRows.cell, hm, AList.lookup_eq_none.mpr hlive]
    rfl
  have hbuckets : overDay (fun m => w.mem.held 1 m .bytesIn + w.flying 1 m .bytesIn) 0 = 0 :=
    overDay_eq_zero fun m _ => by
      rw [Metering.held, (AList.ext hheld : w.mem.buckets = ∅), Meter.flying, hflying]
      rfl
  have hobserved : overDay (fun m => w.observed 1 m .bytesIn) 0 = 15 := by
    rw [overDay_congr fun m _ => observed_midnight hw m]
    decide +kernel
  refine ⟨w, hw, hmem, hday, ?_⟩
  rw [hfolded, hslots, hbuckets, hobserved]
  decide

end TunnelWeaver.Server
