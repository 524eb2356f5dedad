import TunnelWeaver.Server.Conservation

/-! Open time. The ticks of queries, of the metering task and of unregistering each accrue from the
mark the last one left to their own time. They count every millisecond once as long as no tick is
older than a mark; a tick of the metering task that runs after a query with a later clock moves the
marks back, and the time between is accrued again. -/

namespace TunnelWeaver.Server

open Automaton (run Meets run_invariant_of_meets)

namespace Metering
variable {mem : Metering} {s : ServiceId} {now : Int}

theorem lookup_registered_foldl_accrue {services : List ServiceId} :
    (services.foldl (fun mem service => mem.accrue service now) mem).registered.lookup s =
      if s ∈ services then (mem.registered.lookup s).map fun _ => now
      else mem.registered.lookup s := by
  induction services generalizing mem with
  | nil => rfl
  | cons service services ih =>
    rw [List.foldl_cons, ih, lookup_registered_accrue]
    by_cases hs : s = service
    · subst hs
      simp only [if_true, Option.map_map, List.mem_cons_self]
      split <;> rfl
    · simp only [hs, if_false, List.mem_cons, false_or]

theorem lookup_registered_tick :
    (mem.tick now).registered.lookup s = (mem.registered.lookup s).map fun _ => now := by
  rw [tick, lookup_registered_foldl_accrue]
  split
  · rfl
  · rename_i hs
    rw [AList.lookup_eq_none.mpr hs]
    rfl

theorem lookup_registered_unregisterService (service : ServiceId) :
    (mem.unregisterService service now).registered.lookup s =
      if s = service then none else mem.registered.lookup s := by
  simp only [unregisterService]
  rw [Map.lookup_erase_ite, lookup_registered_accrue]
  split <;> simp_all

@[simp] theorem apply_registered (o : Observation) :
    (o.apply mem now).registered = mem.registered := by
  cases o <;> simp only [Observation.apply, recordRequest, visitorServiceBytes, record_registered]
  unfold tunnelBytes
  split <;> simp

@[simp] theorem restore_registered (d : Map (ServiceId × Int) Bucket) :
    (mem.restore d).registered = mem.registered := by
  unfold restore
  generalize d.entries = l
  induction l generalizing mem with
  | nil => rfl
  | cons e l ih => exact ih

end Metering

section
variable [BlobCodec]

namespace Meter
variable {w w' w₀ : Meter} {s : ServiceId} {m : Int} {k : Slots} {a : Act} {l : List Act}

/-- The service was registered at `t`, and `t` is accrued. -/
def AccruedAt (w : Meter) (s : ServiceId) (t : Int) : Prop :=
  (∃ p ∈ w.spans, p.service = s ∧ p.start ≤ t ∧ t < p.stop) ∨
    ∃ start ∈ w.since.lookup s, ∃ mark ∈ w.mem.registered.lookup s, start ≤ t ∧ t < mark

instance : DecidablePred (w.AccruedAt s) := fun _ => inferInstanceAs (Decidable (_ ∨ _))

/-- The milliseconds of a minute in which the service was registered, as far as accrued. -/
noncomputable def accruedMs (w : Meter) (s : ServiceId) (m : Int) : Nat :=
  ((Finset.Ico (m * minuteMs) ((m + 1) * minuteMs)).filter (w.AccruedAt s)).card

theorem accruedMs_le (w : Meter) (s : ServiceId) (m : Int) : (w.accruedMs s m : Int) ≤ minuteMs := by
  have h := Finset.card_filter_le (Finset.Ico (m * minuteMs) ((m + 1) * minuteMs)) (w.AccruedAt s)
  rw [Int.card_Ico] at h
  simp only [accruedMs, minuteMs] at *
  omega

theorem accruedMs_congr (h : ∀ t, w'.AccruedAt s t ↔ w.AccruedAt s t) :
    w'.accruedMs s m = w.accruedMs s m := by
  simp only [accruedMs, h]

/-- Accruing `[mark, now)` after everything accrued so far. -/
theorem accruedMs_add {mark now : Int} (hbefore : ∀ t, w.AccruedAt s t → t < mark)
    (h : ∀ t, w'.AccruedAt s t ↔ w.AccruedAt s t ∨ mark ≤ t ∧ t < now) :
    (w'.accruedMs s m : Int) = w.accruedMs s m + overlap mark now m := by
  have hsplit : (Finset.Ico (m * minuteMs) ((m + 1) * minuteMs)).filter (w'.AccruedAt s) =
      (Finset.Ico (m * minuteMs) ((m + 1) * minuteMs)).filter (w.AccruedAt s) ∪
        Finset.Ico (max mark (m * minuteMs)) (min now ((m + 1) * minuteMs)) := by
    ext t
    simp only [Finset.mem_filter, Finset.mem_union, Finset.mem_Ico, h]
    constructor
    · rintro ⟨hm, ha | hn⟩
      · exact .inl ⟨hm, ha⟩
      · exact .inr (by omega)
    · rintro (⟨hm, ha⟩ | hn)
      · exact ⟨hm, .inl ha⟩
      · exact ⟨by omega, .inr (by omega)⟩
  have hdisjoint : Disjoint
      ((Finset.Ico (m * minuteMs) ((m + 1) * minuteMs)).filter (w.AccruedAt s))
      (Finset.Ico (max mark (m * minuteMs)) (min now ((m + 1) * minuteMs))) := by
    refine Finset.disjoint_left.mpr fun t ht hn => ?_
    have := hbefore t (Finset.mem_filter.mp ht).2
    rw [Finset.mem_Ico] at hn
    omega
  rw [accruedMs, hsplit, Finset.card_union_of_disjoint hdisjoint, Int.card_Ico, accruedMs, overlap]
  omega

/-- The marks are between the registrations and the clock, the registrations follow each other,
and the open time reported is the time accrued. -/
structure Clocked (w : Meter) : Prop where
  registered : ∀ {s}, s ∈ w.since ↔ s ∈ w.mem.registered
  mark : ∀ {s start mark}, w.since.lookup s = some start → w.mem.registered.lookup s = some mark →
    start ≤ mark ∧ mark ≤ w.clock
  spans : ∀ {p}, p ∈ w.spans → p.stop ≤ w.clock ∧
    ∀ {start}, w.since.lookup p.service = some start → p.stop ≤ start
  reported : ∀ {s m}, w.observed s m .openMs = w.accruedMs s m

theorem Clocked.frame (h : w.Clocked) (hmem : w'.mem.registered = w.mem.registered)
    (hclock : w.clock ≤ w'.clock) (hspans : w'.spans = w.spans) (hsince : w'.since = w.since)
    (hobs : ∀ s m, w'.observed s m .openMs = w.observed s m .openMs) : w'.Clocked where
  registered := by rw [hsince, hmem]; exact h.registered
  mark := by
    rw [hsince, hmem]
    intro s start mark hs hm
    have := h.mark hs hm
    omega
  spans := by
    rw [hspans, hsince]
    intro p hp
    exact ⟨(h.spans hp).1.trans hclock, (h.spans hp).2⟩
  reported := by
    intro s m
    rw [hobs, h.reported]
    refine congrArg _ (accruedMs_congr fun t => ?_).symm
    simp only [AccruedAt, hspans, hsince, hmem]

/-- A registered service has a start, before its mark. -/
theorem Clocked.exists_start (h : w.Clocked) {mark : Int}
    (hmark : w.mem.registered.lookup s = some mark) :
    ∃ start, w.since.lookup s = some start ∧ start ≤ mark ∧ mark ≤ w.clock := by
  have hs : s ∈ w.since := h.registered.mpr (AList.lookup_isSome.mp (by simp [hmark]))
  obtain ⟨start, hstart⟩ := Option.isSome_iff_exists.mp (AList.lookup_isSome.mpr hs)
  exact ⟨start, hstart, h.mark hstart hmark⟩

/-- What is accrued of a registered service is before its mark. -/
theorem Clocked.lt_mark (h : w.Clocked) {mark t : Int}
    (hmark : w.mem.registered.lookup s = some mark) (ht : w.AccruedAt s t) : t < mark := by
  obtain ⟨start, hstart, hle, -⟩ := h.exists_start hmark
  rcases ht with ⟨p, hp, rfl, -, ht⟩ | ⟨_, -, mark', hmark', -, ht⟩
  · have := (h.spans hp).2 hstart
    omega
  · rw [hmark] at hmark'
    cases hmark'
    exact ht

theorem Clocked.tick (h : w.Clocked) {now : Int} (hnow : now ≤ w.clock)
    (hmarks : ∀ {s mark}, w.mem.registered.lookup s = some mark → mark ≤ now)
    (hmem : w'.mem.registered = (w.mem.tick now).registered) (hclock : w'.clock = w.clock)
    (hspans : w'.spans = w.spans) (hsince : w'.since = w.since)
    (hobs : ∀ s m, w'.observed s m .openMs = w.observed s m .openMs + w.mem.opened now s m) :
    w'.Clocked := by
  have hlookup (s : ServiceId) : w'.mem.registered.lookup s =
      (w.mem.registered.lookup s).map fun _ => now := by
    rw [hmem, Metering.lookup_registered_tick]
  constructor
  case registered =>
    intro s
    rw [hsince, h.registered, ← AList.lookup_isSome, ← AList.lookup_isSome, hlookup,
      Option.isSome_map]
  case mark =>
    intro s start mark hstart hmark
    rw [hsince] at hstart
    rw [hlookup] at hmark
    obtain ⟨mark', hmark', rfl⟩ := Option.map_eq_some_iff.mp hmark
    have := h.mark hstart hmark'
    have := hmarks hmark'
    omega
  case spans =>
    rw [hspans, hclock, hsince]
    exact h.spans
  case reported =>
    intro s m
    rw [hobs, h.reported, Metering.opened]
    cases hmark : w.mem.registered.lookup s with
    | none =>
      have hcongr : w'.accruedMs s m = w.accruedMs s m := by
        refine accruedMs_congr fun t => ?_
        simp [AccruedAt, hspans, hsince, hlookup, hmark]
      rw [hcongr]
      exact add_zero _
    | some mark =>
      obtain ⟨start, hstart, hle, -⟩ := h.exists_start hmark
      have := hmarks hmark
      refine (accruedMs_add (fun t => h.lt_mark hmark) fun t => ?_).symm
      simp only [AccruedAt, hspans, hsince, hlookup, hmark, hstart, Option.map_some,
        Option.mem_some_iff, exists_eq_left']
      rw [or_assoc]
      refine or_congr_right ?_
      omega

theorem Clocked.unregisterService (h : w.Clocked) (service : ServiceId)
    (hmem : w'.mem.registered = (w.mem.unregisterService service w.clock).registered)
    (hclock : w'.clock = w.clock) (hspans : w'.spans = w.spansAfter (.unregisterService service))
    (hsince : w'.since = w.since.erase service)
    (hobs : ∀ s m, w'.observed s m .openMs =
      w.observed s m .openMs + if s = service then w.mem.opened w.clock s m else 0) :
    w'.Clocked := by
  have hlookup (s : ServiceId) : w'.mem.registered.lookup s =
      if s = service then none else w.mem.registered.lookup s := by
    rw [hmem, Metering.lookup_registered_unregisterService]
  have hlookup' (s : ServiceId) : w'.since.lookup s =
      if s = service then none else w.since.lookup s := by
    rw [hsince, Map.lookup_erase_ite]
  have hmem_spans {p : Span} : p ∈ w'.spans ↔ p ∈ w.spans ∨
      ∃ start, w.since.lookup service = some start ∧ p = ⟨service, start, w.clock⟩ := by
    rw [hspans, spansAfter]
    cases w.since.lookup service with
    | none => simp
    | some start => simp [or_comm]
  constructor
  case registered =>
    intro s
    rw [← AList.lookup_isSome, ← AList.lookup_isSome, hlookup, hlookup']
    split
    · exact .rfl
    · rw [AList.lookup_isSome, AList.lookup_isSome, h.registered]
  case mark =>
    intro s start mark hstart hmark
    rw [hlookup'] at hstart
    rw [hlookup] at hmark
    rw [hclock]
    split at hstart
    · cases hstart
    · rename_i hs
      rw [if_neg hs] at hmark
      exact h.mark hstart hmark
  case spans =>
    intro p hp
    rw [hclock, hlookup']
    rcases hmem_spans.mp hp with hp | ⟨start, hstart, rfl⟩
    · refine ⟨(h.spans hp).1, fun hs => ?_⟩
      split at hs
      · cases hs
      · exact (h.spans hp).2 hs
    · exact ⟨le_rfl, fun hs => by simp at hs⟩
  case reported =>
    intro s m
    rw [hobs, h.reported]
    by_cases hs : s = service
    · subst hs
      rw [if_pos rfl, Metering.opened]
      cases hmark : w.mem.registered.lookup s with
      | none =>
        have hnone : w.since.lookup s = none := by
          rw [AList.lookup_eq_none, h.registered, ← AList.lookup_eq_none]
          exact hmark
        have hcongr : w'.accruedMs s m = w.accruedMs s m := by
          refine accruedMs_congr fun t => ?_
          simp [AccruedAt, hmem_spans, hlookup, hnone]
        rw [hcongr]
        exact add_zero _
      | some mark =>
        obtain ⟨start, hstart, hle, hlast⟩ := h.exists_start hmark
        refine (accruedMs_add (fun t => h.lt_mark hmark) fun t => ?_).symm
        simp only [AccruedAt, hmem_spans, hlookup, hlookup', hmark, hstart, if_true,
          Option.some.injEq, exists_eq_left', Option.mem_def, reduceCtorEq,
          false_and, exists_false, or_false, or_and_right, exists_or, exists_eq_left, true_and]
        rw [or_assoc]
        refine or_congr_right ?_
        omega
    · have hcongr : w'.accruedMs s m = w.accruedMs s m := by
        refine accruedMs_congr fun t => ?_
        simp [AccruedAt, hmem_spans, hlookup, hlookup', hs, or_and_right, exists_or, Ne.symm hs]
      rw [if_neg hs, add_zero, hcongr]

theorem Clocked.registerService (h : w.Clocked) (service : ServiceId)
    (hmem : w'.mem.registered = (w.mem.registerService service w.clock).registered)
    (hclock : w'.clock = w.clock) (hspans : w'.spans = w.spans)
    (hsince : w'.since = w.sinceAfter (.registerService service))
    (hobs : ∀ s m, w'.observed s m .openMs = w.observed s m .openMs) : w'.Clocked := by
  by_cases hreg : service ∈ w.since
  · have hreg' := h.registered.mp hreg
    obtain ⟨mark, hmark⟩ := Option.isSome_iff_exists.mp (AList.lookup_isSome.mpr hreg')
    refine h.frame ?_ hclock.ge hspans ?_ hobs
    · rw [hmem, Metering.registerService, hmark]
    · rw [hsince, sinceAfter, if_pos hreg]
  · have hnone := AList.lookup_eq_none.mpr (h.registered.not.mp hreg)
    have hlookup (s : ServiceId) : w'.mem.registered.lookup s =
        if s = service then some w.clock else w.mem.registered.lookup s := by
      rw [hmem, Metering.registerService, hnone]
      exact Map.lookup_insert_ite ..
    have hlookup' (s : ServiceId) : w'.since.lookup s =
        if s = service then some w.clock else w.since.lookup s := by
      rw [hsince, sinceAfter, if_neg hreg]
      exact Map.lookup_insert_ite ..
    constructor
    case registered =>
      intro s
      rw [← AList.lookup_isSome, ← AList.lookup_isSome, hlookup, hlookup']
      split
      · exact .rfl
      · rw [AList.lookup_isSome, AList.lookup_isSome, h.registered]
    case mark =>
      intro s start mark hstart hmark
      rw [hlookup'] at hstart
      rw [hlookup] at hmark
      rw [hclock]
      split at hstart
      · rename_i hs
        rw [if_pos hs] at hmark
        cases hstart
        cases hmark
        exact ⟨le_rfl, le_rfl⟩
      · rename_i hs
        rw [if_neg hs] at hmark
        exact h.mark hstart hmark
    case spans =>
      intro p hp
      rw [hspans] at hp
      rw [hclock, hlookup']
      refine ⟨(h.spans hp).1, fun hs => ?_⟩
      split at hs
      · cases hs
        exact (h.spans hp).1
      · exact (h.spans hp).2 hs
    case reported =>
      intro s m
      rw [hobs, h.reported]
      refine congrArg _ (accruedMs_congr fun t => ?_).symm
      simp only [AccruedAt, hspans, hlookup, hlookup']
      refine or_congr_right ?_
      split
      · rename_i hs
        subst hs
        simp only [Option.mem_def, Option.some.injEq, exists_eq_left', hnone, reduceCtorEq,
          false_and, exists_false, and_false, iff_false]
        omega
      · exact .rfl

/-- No tick is older than the mark of a registered service; and a flush writes open time into empty
slots, of days that are not folded, for every service that exists. -/
def OpenGuard (w : Meter) : Act → Prop
  | .tick now => ∀ e ∈ w.mem.registered.entries, e.2 ≤ now
  | .write flight => ∀ d ∈ w.flights[flight]?, ∀ e ∈ d.entries, e.1.1 ∈ w.store.services →
    w.store.slot e.1.1 e.1.2 .openMs = 0 ∧ (e.1.1, dayOf e.1.2) ∉ w.store.daily
  | _ => True

instance : Decidable (OpenGuard w a) :=
  match a with
  | .tick _ => inferInstanceAs (Decidable (∀ e ∈ _, _))
  | .write _ => inferInstanceAs (Decidable (∀ d ∈ _, _))
  | .advance _ | .registerStream .. | .unregisterStream _ | .registerService _
  | .unregisterService _ | .observe .. | .drain _ | .fail _ | .foldDay _ | .sweep
  | .deleteService _ => isTrue trivial

theorem OpenGuard.findsEmpty (h : w.OpenGuard a) (hs : s ∈ w.store.services) {flight : Nat}
    {d : Map (ServiceId × Int) Bucket} (ha : a = .write flight)
    (hd : w.flights[flight]? = some d) (hkey : (s, m) ∈ d) :
    w.store.slot s m .openMs = 0 ∧ (s, dayOf m) ∉ w.store.daily := by
  subst ha
  obtain ⟨b, hb⟩ := Option.isSome_iff_exists.mp (AList.lookup_isSome.mpr hkey)
  exact h d hd _ (AList.mem_lookup_iff.mp hb) hs

theorem Clocked.step (h : w.Clocked) (hg : w.OpenGuard a) (hstep : w.step a = some w') :
    w'.Clocked := by
  obtain ⟨v, hv, rfl⟩ := step_eq_some hstep
  cases a with
  | advance ms =>
    cases hv
    exact h.frame rfl (by simp) rfl rfl fun _ _ => add_zero _
  | observe o now =>
    obtain ⟨-, ⟨⟩⟩ := Option.ite_none_right_eq_some.mp hv
    refine h.frame (Metering.apply_registered o) le_rfl rfl rfl fun s m => ?_
    have : o.amount .openMs = 0 := by cases o <;> rfl
    simp [reports, Observation.reported, this]
  | registerStream stream service =>
    cases hv
    exact h.frame rfl le_rfl rfl rfl fun _ _ => add_zero _
  | unregisterStream stream =>
    cases hv
    exact h.frame rfl le_rfl rfl rfl fun _ _ => add_zero _
  | registerService service =>
    cases hv
    exact h.registerService service rfl rfl rfl rfl fun _ _ => add_zero _
  | unregisterService service =>
    cases hv
    exact h.unregisterService service rfl rfl rfl rfl fun _ _ => rfl
  | tick now =>
    obtain ⟨hnow, ⟨⟩⟩ := Option.ite_none_right_eq_some.mp hv
    exact h.tick hnow (fun hmark => hg _ (AList.mem_lookup_iff.mp hmark)) rfl rfl rfl rfl
      fun _ _ => rfl
  | drain now =>
    obtain ⟨-, ⟨⟩⟩ := Option.ite_none_right_eq_some.mp hv
    exact h.frame rfl le_rfl rfl rfl fun _ _ => add_zero _
  | write flight =>
    obtain ⟨d, hd, rfl⟩ := Option.map_eq_some_iff.mp hv
    refine h.frame ?_ ?_ rfl rfl fun _ _ => add_zero _
    · rcases w.finish_cases flight d with he | he <;> simp [he]
    · rcases w.finish_cases flight d with he | he <;> simp [he]
  | fail flight =>
    obtain ⟨d, hd, rfl⟩ := Option.map_eq_some_iff.mp hv
    exact h.frame (Metering.restore_registered d) le_rfl rfl rfl fun _ _ => add_zero _
  | foldDay day =>
    obtain ⟨-, ⟨⟩⟩ := Option.ite_none_right_eq_some.mp hv
    exact h.frame rfl le_rfl rfl rfl fun _ _ => add_zero _
  | sweep =>
    cases hv
    exact h.frame rfl le_rfl rfl rfl fun _ _ => add_zero _
  | deleteService service =>
    cases hv
    exact h.frame rfl le_rfl rfl rfl fun _ _ => add_zero _

theorem Clocked.fits (h : w'.Clocked) (hstep : w.step a = some w') :
    w.observed s m .openMs + w.reports a s m .openMs ≤ Slots.openMs.cap := by
  have hle := accruedMs_le w' s m
  rw [← h.reported] at hle
  obtain ⟨v, -, rfl⟩ := step_eq_some hstep
  exact hle

theorem Initial.clocked (h : w.Initial) : w.Clocked := by
  have hreg : w.mem.registered = ∅ := by rw [h.mem]
  constructor
  case registered => simp [h.since, hreg]
  case mark =>
    intro s start mark hstart
    rw [h.since] at hstart
    cases hstart
  case spans => simp [h.spans]
  case reported =>
    intro s m
    have hnone (t : Int) : ¬w.AccruedAt s t := by
      simp [AccruedAt, h.spans, h.since]
    simp [h.observed, accruedMs, hnone]

theorem Initial.apart (h : w.Initial) : w.Apart := by
  intro s day _ hlive
  rw [h.live] at hlive
  exact absurd hlive (AList.notMem_empty _)

/-- The open time of every service that exists is accounted for, on the days inside the
retention. -/
structure Exact (w : Meter) : Prop where
  clocked : w.Clocked
  apart : w.Apart
  accounted : ∀ {s m}, s ∈ w.store.services → w.cutoffDay ≤ dayOf m → w.Accounted s m .openMs

theorem Exact.step (h : w.Exact) (hg : w.OpenGuard a) (hstep : w.step a = some w') :
    w'.Exact := by
  have hclocked := h.clocked.step hg hstep
  refine ⟨hclocked, h.apart.step (fun ha hd hs hm => (hg.findsEmpty hs ha hd hm).2) hstep, ?_⟩
  intro s m hs hday
  have hs' := services_of_step hstep hs
  have hday' := (cutoffDay_le_of_step hstep).trans hday
  exact (h.accounted hs' hday').step hs (fun _ => hday) (h.apart s _ hs') (hclocked.fits hstep)
    (fun flight d ha hd hm => (hg.findsEmpty hs' ha hd hm).1) hstep

/-- In every run whose ticks are not older than the marks and whose flushes write empty slots of
days that are not folded, the open time stored and in memory of a minute is the number of its
milliseconds in which the service was registered and that are accrued. -/
theorem open_time_counted_once (h : w₀.Initial) (hm : Meets Meter.step OpenGuard w₀ l)
    (hrun : run Meter.step w₀ l = some w) (hs : s ∈ w.store.services)
    (hday : w.cutoffDay ≤ dayOf m) :
    w.store.slot s m .openMs + w.store.folded s m .openMs + w.mem.held s m .openMs +
      w.flying s m .openMs = w.accruedMs s m := by
  have hexact : w.Exact := run_invariant_of_meets Exact.step hm
    ⟨h.clocked, h.apart, fun _ _ => h.accounted⟩ hrun
  rw [(hexact.accounted hs hday).total, hexact.clocked.reported]

end Meter

end

namespace Sample

/-- A service is registered for a minute, which the metering task then flushes. -/
def minuteOpen : List Act :=
  [.registerService 1, .advance 60000, .tick 60000, .drain 60000, .write 0]

/-- A query ticks at 60.005 s, and the tick of the task for second 60 takes the lock after it;
another query ticks at 61 s. -/
def lateTick : List Act :=
  [.registerService 1, .advance 60005, .tick 60005, .tick 60000, .advance 995, .tick 61000]

end Sample

open Sample in
theorem open_time_counted_once_minute :
    ∃ w, run Meter.step start minuteOpen = some w ∧ w.store.slot 1 0 .openMs = 60000 ∧
      w.store.slot 1 0 .openMs + w.store.folded 1 0 .openMs + w.mem.held 1 0 .openMs +
        w.flying 1 0 .openMs = w.accruedMs 1 0 := by
  obtain ⟨w, hw, h⟩ := (Option.any_eq_true (fun w : Meter =>
    decide (w.store.slot 1 0 .openMs = 60000) && decide (1 ∈ w.store.services) &&
      decide (w.cutoffDay ≤ dayOf 0)) (run Meter.step start minuteOpen)).mp (by decide +kernel)
  simp only [Bool.and_eq_true, decide_eq_true_eq] at h
  exact ⟨w, hw, h.1.1,
    Meter.open_time_counted_once start_initial (by decide +kernel) hw h.1.2 h.2⟩

open Sample in
/-- The first second of the minute counts 1005 ms: the late tick moved the mark back. -/
theorem late_tick_counts_twice :
    start.Initial ∧ ∃ w, run Meter.step start lateTick = some w ∧ 1 ∈ w.store.services ∧
      w.cutoffDay ≤ dayOf 1 ∧
      w.store.slot 1 1 .openMs + w.store.folded 1 1 .openMs + w.mem.held 1 1 .openMs +
        w.flying 1 1 .openMs ≠ w.accruedMs 1 1 := by
  obtain ⟨w, hw, h⟩ := (Option.any_eq_true (fun w : Meter =>
    decide (1 ∈ w.store.services) && decide (w.cutoffDay ≤ dayOf 1) && w.spans.isEmpty &&
      decide (w.since.lookup 1 = some 0) && decide (w.mem.registered.lookup 1 = some 61000) &&
      decide (w.store.slot 1 1 .openMs + w.store.folded 1 1 .openMs + w.mem.held 1 1 .openMs +
        w.flying 1 1 .openMs = 1005)) (run Meter.step start lateTick)).mp (by decide +kernel)
  simp only [Bool.and_eq_true, decide_eq_true_eq, List.isEmpty_iff] at h
  obtain ⟨⟨⟨⟨⟨hs, hday⟩, hspans⟩, hsince⟩, hmark⟩, hsum⟩ := h
  refine ⟨start_initial, w, hw, hs, hday, ?_⟩
  have hsub : (Finset.Ico (1 * minuteMs) ((1 + 1) * minuteMs)).filter (w.AccruedAt 1) ⊆
      Finset.Ico 60000 61000 := by
    intro t ht
    obtain ⟨hm, ha⟩ := Finset.mem_filter.mp ht
    have hlt : t < 61000 := by
      simp only [Meter.AccruedAt, hspans, hsince, hmark] at ha
      simp at ha
      exact ha.2
    rw [Finset.mem_Ico] at hm ⊢
    simp only [minuteMs] at hm
    omega
  have hcard := Finset.card_le_card hsub
  rw [Int.card_Ico] at hcard
  have hle : w.accruedMs 1 1 ≤ 1000 := hcard
  rw [hsum]
  omega

end TunnelWeaver.Server
