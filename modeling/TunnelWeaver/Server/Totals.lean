import TunnelWeaver.Server.Metrics

/-! The totals of a window, and the minute a service was last up (`metrics.rs`). A folded day counts
with its whole totals, of a live day the minutes of the window. -/

namespace TunnelWeaver.Server

open Extent (IsTop)
open Series (tally sumAt sumAt_append sumAt_flatMap_of_nodup)

namespace UsageStore

variable [BlobCodec] (st : UsageStore)

/-- `SELECT service_id, SUM(metric) … GROUP BY service_id` over the rollup rows of a span of days. -/
def summedRows (services : List ServiceId) (first last : Int) (k : Slots) : List (ServiceId × Int) :=
  let rows := st.dailyRows services first last
  (rows.map (·.1.1)).dedup.map fun service =>
    (service, ((rows.filter (·.1.1 = service)).map (·.2.total k)).sum)

/-- The values of the live days of a span, of the minutes from `first` to `last`. -/
def liveTotals (services : List ServiceId) (metrics : List Slots) (firstDay lastDay first last : Int) :
    List ((ServiceId × Slots) × Int) :=
  ((st.liveDays services).filter fun pair => firstDay ≤ pair.2 ∧ pair.2 ≤ lastDay).flatMap fun pair =>
    (slotsOf metrics).flatMap fun k =>
      ((List.range minutesPerDay).filter fun (index : Nat) =>
        first ≤ pair.2 * minutesPerDay + index ∧ pair.2 * minutesPerDay + index ≤ last).map
          fun index => ((pair.1, k), st.live.cell pair k index)

/-- `MetricsStore::totals`. -/
def totals (services : List ServiceId) (metrics : List Slots) (start stop : Int) :
    Map (ServiceId × Slots) Int :=
  if services.isEmpty ∨ metrics.isEmpty ∨ stop ≤ start then ∅
  else
    let zeroes := Map.tabulate (services ×ˢ metrics) fun _ => 0
    let firstDay := start / secsPerDay
    let lastDay := (stop - 1) / secsPerDay
    let folded := metrics.flatMap fun k =>
      (st.summedRows services firstDay lastDay k).map fun e => ((e.1, k), e.2)
    let live := st.liveTotals services metrics firstDay lastDay (start / 60) ((stop - 1) / 60)
    (folded ++ live).foldl tally zeroes

/-- `iter().rposition(|value| *value > 0)` of a decoded array. -/
def lastPositive (values : List Int) : Option Nat :=
  (List.range values.length).reverse.find? fun i => 0 < values.getD i 0

/-- The rollup rows with open time. -/
def openedRows (services : List ServiceId) : List ((ServiceId × Int) × UsageDaily) :=
  (st.daily.keys.filterMap fun pair => (st.daily.lookup pair).map fun row => (pair, row)).filter
    fun e => e.1.1 ∈ services ∧ 0 < e.2.total .openMs

/-- The rollup row of the latest day with open time, of each service that has one. -/
def latestOpen (services : List ServiceId) : List ((ServiceId × Int) × UsageDaily) :=
  ((st.openedRows services).map (·.1.1)).dedup.filterMap fun service =>
    ((((st.openedRows services).filter (·.1.1 = service)).map (·.1.2)).max?).bind fun day =>
      (st.daily.lookup (service, day)).map fun row => ((service, day), row)

/-- The last open minute of a rollup row. -/
def seeFolded (last : Map ServiceId Int) (e : (ServiceId × Int) × UsageDaily) :
    Except UsageError (Map ServiceId Int) :=
  (decodeBlob (e.2.minutes .openMs)).map fun minutes =>
    (lastPositive minutes).elim last fun index =>
      last.insert e.1.1 (e.1.2 * minutesPerDay + (index : Nat))

/-- A minute is kept where it is later than the one known. -/
def seeMinute (last : Map ServiceId Int) (service : ServiceId) : Option Int → Map ServiceId Int
  | some minute =>
    last.insert service (((last.lookup service).map fun seen => max seen minute).getD minute)
  | none => last

/-- The last minute with open time of an array of a day. -/
def topOf (day : Int) (values : Nat → Int) : Option Int :=
  (rposition values).map fun index => day * minutesPerDay + (index : Nat)

def seeLive (last : Map ServiceId Int) (pair : ServiceId × Int) : Map ServiceId Int :=
  seeMinute last pair.1 (topOf pair.2 (st.live.cell pair .openMs))

/-- `MetricsStore::last_open_minutes`. -/
def lastOpenMinutes (services : List ServiceId) : Except UsageError (Map ServiceId Int) := do
  if services.isEmpty then return ∅
  let folded ← (st.latestOpen services).foldlM seeFolded ∅
  return (st.liveDays services).foldl st.seeLive folded

/-! ## What the totals count -/

variable {st : UsageStore} {services : List ServiceId} {metrics : List Slots} {start stop : Int}
  {s : ServiceId} {k : Slots}

/-- What a total counts of a minute: what is folded of it, and of the live rows the minutes from
`first` to `last`. -/
def counted (st : UsageStore) (first last : Int) (service : ServiceId) (minute : Int) (k : Slots) :
    Int :=
  st.folded service minute k + if first ≤ minute ∧ minute ≤ last then st.slot service minute k else 0

/-- The minutes of the days that a window meets. -/
noncomputable def daysOf (start stop : Int) : Finset Int :=
  Finset.Ico (start / secsPerDay * minutesPerDay) (((stop - 1) / secsPerDay + 1) * minutesPerDay)

theorem total_of_lookup (hrolled : st.Rolled) {day : Int} {row : UsageDaily}
    (hrow : st.daily.lookup (s, day) = some row) (k : Slots) :
    row.total k = ∑ i ∈ Finset.range minutesPerDay, st.folded s (day * minutesPerDay + i) k := by
  obtain ⟨cells, rfl⟩ := hrolled _ row hrow
  refine (sum_hourSums (cells k)).trans (Finset.sum_congr rfl fun i hi => ?_)
  have hlt := Finset.mem_range.mp hi
  rw [folded, dayOf_mul_add day hlt, slotOf_mul_add day hlt, hrow, Nat.zero_mul, Nat.zero_add]
  exact (minute_writeDay cells k hlt).symm

theorem map_dailyRows {α : Type} (g : (ServiceId × Int) × UsageDaily → α) (g' : ServiceId × Int → α)
    (hg : ∀ pair row, st.daily.lookup pair = some row → g (pair, row) = g' pair) (first last : Int) :
    (st.dailyRows services first last).map g = (st.daily.keys.filter fun pair =>
      pair.1 ∈ services ∧ first ≤ pair.2 ∧ pair.2 ≤ last).map g' := by
  rw [dailyRows, List.map_filterMap, ← List.filterMap_eq_map]
  refine List.filterMap_congr fun pair hpair => ?_
  obtain ⟨row, hrow⟩ := Option.isSome_iff_exists.mp
    (AList.lookup_isSome.mpr (AList.mem_keys.mpr (List.mem_of_mem_filter hpair)))
  rw [hrow]
  exact congrArg some (hg pair row hrow)

theorem folded_of_notMem {m : Int} (h : (s, dayOf m) ∉ st.daily) : st.folded s m k = 0 := by
  rw [folded, AList.lookup_eq_none.mpr h]

theorem sumAt_summedRows (hrolled : st.Rolled) (hs : s ∈ services) (first last : Int) (k : Slots) :
    sumAt (st.summedRows services first last k) s =
      ∑ day ∈ Finset.Ico first (last + 1), ∑ i ∈ Finset.range minutesPerDay,
        st.folded s (day * minutesPerDay + i) k := by
  have hsum : sumAt (st.summedRows services first last k) s =
      ((st.dailyRows services first last).map fun e => if e.1.1 = s then e.2.total k else 0).sum := by
    have hparts : sumAt (st.summedRows services first last k) s =
        sumAt ((((st.dailyRows services first last).map (·.1.1)).dedup).flatMap fun service =>
          [(service, (((st.dailyRows services first last).filter (·.1.1 = service)).map
            (·.2.total k)).sum)]) s := by
      rw [summedRows, List.map_eq_flatMap]
    rw [hparts, sumAt_flatMap_of_nodup (List.nodup_dedup _) (a := s)]
    · rw [Series.sumAt_cons, if_pos rfl, Series.sumAt_nil, add_zero, Series.sum_map_filter]
      simp only [decide_eq_true_eq]
      split
      · rfl
      · rename_i hnot
        refine (List.sum_eq_zero fun v hv => ?_).symm
        obtain ⟨e, he, rfl⟩ := List.mem_map.mp hv
        refine if_neg fun hservice => hnot (List.mem_dedup.mpr (List.mem_map.mpr ⟨e, he, hservice⟩))
    · intro service _ hne
      rw [Series.sumAt_cons, if_neg hne, Series.sumAt_nil, add_zero]
  have hnodup (p : ServiceId × Int → Bool) : (st.daily.keys.filter p).Nodup :=
    st.daily.nodupKeys.filter p
  rw [hsum, map_dailyRows _ (fun pair => if pair.1 = s then ∑ i ∈ Finset.range minutesPerDay,
    st.folded s (pair.2 * minutesPerDay + i) k else 0)]
  · rw [Series.sum_pairs (hnodup _) (a := s) (D := Finset.Ico first (last + 1))
      (f := fun day => ∑ i ∈ Finset.range minutesPerDay, st.folded s (day * minutesPerDay + i) k)]
    · intro day hday
      have hrange := (decide_eq_true_iff.mp (List.mem_filter.mp hday).2).2
      dsimp only at hrange
      exact Finset.mem_Ico.mpr ⟨by omega, by omega⟩
    · intro day hday hnot
      have hrange := Finset.mem_Ico.mp hday
      refine Finset.sum_eq_zero fun i hi => folded_of_notMem ?_
      rw [dayOf_mul_add day (Finset.mem_range.mp hi)]
      intro hrow
      exact hnot (List.mem_filter.mpr ⟨AList.mem_keys.mp hrow,
        decide_eq_true ⟨hs, by dsimp only; omega, by dsimp only; omega⟩⟩)
  · intro pair row hrow
    dsimp only
    split
    · rename_i hservice
      subst hservice
      exact total_of_lookup hrolled hrow k
    · rfl

theorem sumAt_liveTotals (hmetrics : metrics.Nodup) (hk : k ∈ metrics) (hs : s ∈ services)
    (firstDay lastDay first last : Int) :
    sumAt (st.liveTotals services metrics firstDay lastDay first last) (s, k) =
      ∑ day ∈ Finset.Ico firstDay (lastDay + 1), ∑ i ∈ Finset.range minutesPerDay,
        if first ≤ day * minutesPerDay + i ∧ day * minutesPerDay + i ≤ last then
          st.slot s (day * minutesPerDay + i) k else 0 := by
  generalize hvalues : (fun (pair : ServiceId × Int) (k : Slots) =>
    ((List.range minutesPerDay).filter fun (index : Nat) =>
      first ≤ pair.2 * minutesPerDay + index ∧ pair.2 * minutesPerDay + index ≤ last).map
        fun index => ((pair.1, k), st.live.cell pair k index)) = values
  have hcell (pair : ServiceId × Int) : sumAt ((slotsOf metrics).flatMap (values pair)) (s, k) =
      if pair.1 = s then ∑ i ∈ Finset.range minutesPerDay,
        if first ≤ pair.2 * minutesPerDay + i ∧ pair.2 * minutesPerDay + i ≤ last then
          st.slot s (pair.2 * minutesPerDay + i) k else 0 else 0 := by
    have hvalue (k' : Slots) : sumAt (values pair k') (s, k) = if (pair.1, k') = (s, k) then
        ∑ i ∈ Finset.range minutesPerDay,
          if first ≤ pair.2 * minutesPerDay + i ∧ pair.2 * minutesPerDay + i ≤ last then
            st.live.cell pair k' i else 0 else 0 := by
      rw [← hvalues]
      refine (Series.sumAt_map_const _ (pair.1, k') _).trans (if_congr Iff.rfl ?_ rfl)
      rw [Series.sum_map_filter, sum_map_range]
      exact Finset.sum_congr rfl fun i _ => if_congr decide_eq_true_iff rfl rfl
    rw [slotsOf_of_nodup hmetrics, sumAt_flatMap_of_nodup hmetrics (a := k), if_pos hk, hvalue]
    · rw [if_congr (show (pair.1, k) = (s, k) ↔ pair.1 = s by simp) rfl rfl]
      split
      · rename_i hservice
        subst hservice
        refine Finset.sum_congr rfl fun i hi => ?_
        have hlt := Finset.mem_range.mp hi
        rw [slot, dayOf_mul_add pair.2 hlt, slotOf_mul_add pair.2 hlt]
      · rfl
    · intro k' _ hne
      rw [hvalue, if_neg fun h => hne (Prod.mk.inj h).2]
  have hnodup (p : ServiceId × Int → Bool) : ((st.liveDays services).filter p).Nodup := by
    rw [liveDays]
    exact ((List.perm_insertionSort _ _).nodup_iff.mpr (st.live.nodupKeys.filter _)).filter _
  have htotals : st.liveTotals services metrics firstDay lastDay first last =
      ((st.liveDays services).filter fun pair => firstDay ≤ pair.2 ∧ pair.2 ≤ lastDay).flatMap
        fun pair => (slotsOf metrics).flatMap (values pair) := by
    rw [← hvalues]
    rfl
  rw [htotals, Series.sumAt_flatMap, List.map_congr_left fun pair _ => hcell pair,
    Series.sum_pairs (hnodup _) (a := s) (D := Finset.Ico firstDay (lastDay + 1))
      (f := fun day => ∑ i ∈ Finset.range minutesPerDay,
        if first ≤ day * minutesPerDay + i ∧ day * minutesPerDay + i ≤ last then
          st.slot s (day * minutesPerDay + i) k else 0)]
  · intro day hday
    have hrange := decide_eq_true_iff.mp (List.mem_filter.mp hday).2
    dsimp only at hrange
    exact Finset.mem_Ico.mpr ⟨by omega, by omega⟩
  · intro day hday hnot
    have hrange := Finset.mem_Ico.mp hday
    refine Finset.sum_eq_zero fun i hi => ?_
    rw [slot_of_notMem, ite_self]
    rw [dayOf_mul_add day (Finset.mem_range.mp hi)]
    intro hlive
    refine hnot (List.mem_filter.mpr ⟨?_, decide_eq_true ⟨by dsimp only; omega, by dsimp only; omega⟩⟩)
    rw [liveDays, List.mem_insertionSort, List.mem_filter]
    exact ⟨AList.mem_keys.mp hlive, decide_eq_true hs⟩

/-- The total of a service and a metric is the sum over the minutes of the days of the window. -/
theorem lookup_totals (hrolled : st.Rolled) (hmetrics : metrics.Nodup) (hs : s ∈ services)
    (hk : k ∈ metrics) (hlt : start < stop) : (st.totals services metrics start stop).lookup (s, k) =
      some (∑ m ∈ daysOf start stop, st.counted (start / 60) ((stop - 1) / 60) s m k) := by
  have hempty : ¬(services.isEmpty ∨ metrics.isEmpty ∨ stop ≤ start) := by
    rintro (h | h | h)
    · rw [List.isEmpty_iff.mp h] at hs
      cases hs
    · rw [List.isEmpty_iff.mp h] at hk
      cases hk
    · omega
  have hkey : (s, k) ∈ services ×ˢ metrics := List.pair_mem_product.mpr ⟨hs, hk⟩
  rw [totals, if_neg hempty]
  dsimp only
  rw [Series.lookup_foldl_tally, Map.lookup_tabulate, if_pos hkey,
    Option.map_some, zero_add, sumAt_append, sumAt_liveTotals hmetrics hk hs]
  have hfolded : sumAt (metrics.flatMap fun k => (st.summedRows services (start / secsPerDay)
      ((stop - 1) / secsPerDay) k).map fun e => ((e.1, k), e.2)) (s, k) =
      ∑ day ∈ Finset.Ico (start / secsPerDay) ((stop - 1) / secsPerDay + 1),
        ∑ i ∈ Finset.range minutesPerDay, st.folded s (day * minutesPerDay + i) k := by
    have hvalue (k' : Slots) (l : List (ServiceId × Int)) :
        sumAt (l.map fun e => ((e.1, k'), e.2)) (s, k) = if k' = k then sumAt l s else 0 := by
      split
      · rename_i hkey
        subst hkey
        rw [sumAt, List.map_map]
        exact congrArg List.sum (List.map_congr_left fun e _ => if_congr (by simp) rfl rfl)
      · rename_i hkey
        refine Series.sumAt_eq_zero fun e he => ?_
        obtain ⟨e, -, rfl⟩ := List.mem_map.mp he
        exact fun h => hkey (Prod.mk.inj h).2
    rw [sumAt_flatMap_of_nodup hmetrics (a := k), if_pos hk, hvalue, if_pos rfl,
      sumAt_summedRows hrolled hs]
    intro k' _ hne
    rw [hvalue, if_neg hne]
  rw [hfolded, daysOf, ← Series.sum_blocks (by decide), ← Finset.sum_add_distrib]
  refine congrArg some (Finset.sum_congr rfl fun day _ => ?_)
  exact Finset.sum_add_distrib.symm

/-! ## Totals and series -/

/-- No day of a service is both live and folded. -/
def Apart (st : UsageStore) : Prop := ∀ s day, ¬((s, day) ∈ st.live ∧ (s, day) ∈ st.daily)

/-- The minutes of the slots of a query. -/
noncomputable def slotMinutes (q : MetricsQuery) : Finset Int :=
  Finset.Ico (q.range.1 * (Granularity.choose q.start q.stop).minutesPerSlot)
    ((q.range.1 + q.range.2) * (Granularity.choose q.start q.stop).minutesPerSlot)

theorem counted_eq_seen (hapart : st.Apart) (first last m : Int) :
    st.counted first last s m k = st.seen first last s m k := by
  rw [counted, seen]
  by_cases hrow : (s, dayOf m) ∈ st.daily
  · rw [if_pos hrow, slot_of_notMem fun hlive => hapart s _ ⟨hlive, hrow⟩, ite_self, add_zero]
  · rw [if_neg hrow, folded_of_notMem hrow, zero_add]

theorem total_seriesOf (q : MetricsQuery) : (st.seriesOf q (s, k)).total =
    ∑ m ∈ (slotMinutes q), st.seen (q.start / 60) ((q.stop - 1) / 60) s m k := by
  rw [slotMinutes, ← Series.sum_blocks (by cases Granularity.choose q.start q.stop <;> decide),
    ← Series.sum_range_add]
  rfl

omit [BlobCodec] in
/-- The slots of a window lie in its days, and cover its minutes. -/
theorem slotMinutes_subset (q : MetricsQuery) : slotMinutes q ⊆ daysOf q.start q.stop := by
  intro m hm
  obtain ⟨hle, hlt⟩ := Finset.mem_Ico.mp hm
  generalize hg : Granularity.choose q.start q.stop = g at hle hlt
  have hpos : 0 < g.minutesPerSlot := by cases g <;> decide
  have hx := Int.le_ediv_iff_mul_le (Int.ofNat_lt.mpr hpos) |>.mpr hle
  have hx' := Int.ediv_lt_iff_lt_mul (Int.ofNat_lt.mpr hpos) |>.mpr hlt
  have hj : (m / g.minutesPerSlot - q.range.1).toNat < (slotRange q.start q.stop g).2 := by
    rw [← hg] at hx hx' ⊢
    change _ < q.range.2
    omega
  have hslot : (slotRange q.start q.stop g).1 + (m / g.minutesPerSlot - q.range.1).toNat =
      m / g.minutesPerSlot := by
    rw [← hg] at hx ⊢
    change q.range.1 + _ = _
    omega
  obtain ⟨hfirst, hlast⟩ := day_of_slotRange g hj
  rw [hslot] at hfirst hlast
  refine Finset.mem_Ico.mpr ?_
  cases g <;>
    simp only [Granularity.minutesPerSlot, Granularity.secs, Granularity.slotsPerDay, secsPerDay,
      minutesPerDay, Int.reduceDiv, Int.reduceToNat, Nat.cast_ofNat, Nat.cast_one] at * <;> omega

omit [BlobCodec] in
theorem mem_slotMinutes {q : MetricsQuery} (hstart : I64.minValue ≤ q.start) (hlt : q.start < q.stop)
    (hstop : q.stop ≤ I64.maxValue) {m : Int} (hm : q.start / 60 ≤ m ∧ m ≤ (q.stop - 1) / 60) :
    m ∈ slotMinutes q := by
  have hcount := Granularity.slotRange_count hstart hlt hstop (Granularity.choose q.start q.stop)
  have hfirst : q.range.1 = q.start / (Granularity.choose q.start q.stop).secs := by
    rw [MetricsQuery.range, slotRange, if_neg (by omega)]
  refine Finset.mem_Ico.mpr ?_
  rw [hfirst, MetricsQuery.range, hcount]
  cases Granularity.choose q.start q.stop <;>
    simp only [Granularity.minutesPerSlot, Granularity.secs, Int.reduceDiv, Int.reduceToNat,
      Nat.cast_ofNat, Nat.cast_one] <;> omega

/-- A minute with open time, folded or live. -/
def OpenAt (st : UsageStore) (s : ServiceId) (m : Int) : Prop :=
  0 < st.folded s m .openMs ∨ 0 < st.slot s m .openMs

omit [BlobCodec] in
theorem isTop_topOf (day : Int) (values : Nat → Int) :
    IsTop {m | dayOf m = day ∧ 0 < values (slotOf m)} (topOf day values) := by
  refine ⟨fun hnone => ?_, fun htop => ?_⟩
  · refine Set.eq_empty_of_forall_notMem fun m hm => ?_
    obtain ⟨first, last, -, hsome, -⟩ := positions_span (slotOf_lt m) hm.2
    rw [topOf, hsome] at hnone
    cases hnone
  · obtain ⟨last, hlast, rfl⟩ := Option.map_eq_some_iff.mp htop
    obtain ⟨hlt, hvalue⟩ := of_position (.inr hlast)
    refine ⟨⟨dayOf_mul_add day hlt, ?_⟩, fun m hm => ?_⟩
    · rw [slotOf_mul_add day hlt]
      exact hvalue
    · obtain ⟨first, last', -, hsome, -, hle⟩ := positions_span (slotOf_lt m) hm.2
      obtain rfl := Option.some.inj (hlast.symm.trans hsome)
      rw [← dayOf_mul_add_slotOf m, hm.1]
      omega

theorem lookup_seeLive (last : Map ServiceId Int) (pair : ServiceId × Int) (s : ServiceId) :
    (st.seeLive last pair).lookup s = if pair.1 = s then
      Option.merge max (last.lookup s) (topOf pair.2 (st.live.cell pair .openMs))
      else last.lookup s := by
  rw [seeLive]
  generalize topOf pair.2 (st.live.cell pair .openMs) = top
  cases top with
  | none =>
    rw [seeMinute]
    split
    · cases last.lookup s <;> rfl
    · rfl
  | some minute =>
    rw [seeMinute, Map.lookup_insert_ite]
    by_cases hs : pair.1 = s
    · subst hs
      rw [if_pos rfl, if_pos rfl]
      cases last.lookup pair.1 <;> rfl
    · rw [if_neg (Ne.symm hs), if_neg hs]

/-- The live days add their open minutes to what is known of a service. -/
theorem isTop_foldl_seeLive {A : Set Int} {pairs : List (ServiceId × Int)} {last : Map ServiceId Int}
    (h : IsTop A (last.lookup s)) : IsTop (A ∪ {m | (s, dayOf m) ∈ pairs ∧ 0 < st.slot s m .openMs})
      ((pairs.foldl st.seeLive last).lookup s) := by
  induction pairs generalizing A last with
  | nil => simpa using h
  | cons pair pairs ih =>
    rw [List.foldl_cons]
    by_cases hs : pair.1 = s
    · have hstep : IsTop (A ∪ {m | dayOf m = pair.2 ∧ 0 < st.live.cell pair .openMs (slotOf m)})
          ((st.seeLive last pair).lookup s) := by
        rw [lookup_seeLive, if_pos hs]
        exact h.union (isTop_topOf _ _)
      have hrun := ih hstep
      rw [Set.union_assoc] at hrun
      refine cast (congrArg (fun B => IsTop (A ∪ B) _) (Set.ext fun m => ?_)) hrun
      subst hs
      have hpair : dayOf m = pair.2 ↔ (pair.1, dayOf m) = pair :=
        ⟨fun h => Prod.ext rfl h, congrArg Prod.snd⟩
      have hvalue (h : (pair.1, dayOf m) = pair) :
          0 < st.live.cell pair .openMs (slotOf m) ↔ 0 < st.slot pair.1 m .openMs := by
        rw [slot, h]
      simp only [Set.mem_union, Set.mem_ofPred_eq, List.mem_cons, or_and_right, hpair]
      exact or_congr_left (and_congr_right hvalue)
    · have hstep : IsTop A ((st.seeLive last pair).lookup s) := by
        rw [lookup_seeLive, if_neg hs]
        exact h
      have hother (m : Int) : (s, dayOf m) ∈ pair :: pairs ↔ (s, dayOf m) ∈ pairs := by
        rw [List.mem_cons]
        exact or_iff_right fun heq => hs (congrArg Prod.fst heq).symm
      simp only [hother]
      exact ih hstep

/-! ### Folded days -/

/-- A row that the query over the folded days joins: the latest of its service with open time. -/
def IsLatest (st : UsageStore) (services : List ServiceId) (e : (ServiceId × Int) × UsageDaily) :
    Prop :=
  e.1.1 ∈ services ∧ st.daily.lookup e.1 = some e.2 ∧ 0 < e.2.total .openMs ∧
    ∀ day row, st.daily.lookup (e.1.1, day) = some row → 0 < row.total .openMs → day ≤ e.1.2

theorem mem_openedRows {e : (ServiceId × Int) × UsageDaily} : e ∈ st.openedRows services ↔
    e.1.1 ∈ services ∧ st.daily.lookup e.1 = some e.2 ∧ 0 < e.2.total .openMs := by
  rw [openedRows, List.mem_filter, decide_eq_true_iff, List.mem_filterMap]
  constructor
  · rintro ⟨⟨pair, -, hpair⟩, hs, htotal⟩
    obtain ⟨row, hrow, rfl⟩ := Option.map_eq_some_iff.mp hpair
    exact ⟨hs, hrow, htotal⟩
  · rintro ⟨hs, hrow, htotal⟩
    refine ⟨⟨e.1, AList.mem_keys.mp (AList.lookup_isSome.mp (by rw [hrow]; rfl)), ?_⟩, hs, htotal⟩
    rw [hrow]
    rfl

theorem latestOpen_eq (service : ServiceId) {e : (ServiceId × Int) × UsageDaily} :
    (((((st.openedRows services).filter (·.1.1 = service)).map (·.1.2)).max?).bind fun day =>
      (st.daily.lookup (service, day)).map fun row => ((service, day), row)) = some e ↔
      e.1.1 = service ∧ st.IsLatest services e := by
  have hmem (day : Int) : day ∈ ((st.openedRows services).filter (·.1.1 = service)).map (·.1.2) ↔
      service ∈ services ∧ ∃ row, st.daily.lookup (service, day) = some row ∧
        0 < row.total .openMs := by
    simp only [List.mem_map, List.mem_filter, mem_openedRows, decide_eq_true_eq]
    constructor
    · rintro ⟨e, ⟨⟨hs, hrow, htotal⟩, rfl⟩, rfl⟩
      exact ⟨hs, e.2, hrow, htotal⟩
    · rintro ⟨hs, row, hrow, htotal⟩
      exact ⟨((service, day), row), ⟨⟨hs, hrow, htotal⟩, rfl⟩, rfl⟩
  rw [Option.bind_eq_some_iff]
  constructor
  · rintro ⟨day, hday, hmap⟩
    obtain ⟨row, hrow, rfl⟩ := Option.map_eq_some_iff.mp hmap
    obtain ⟨hmax, hle⟩ := List.max?_eq_some_iff.mp hday
    obtain ⟨hs, row', hrow', htotal⟩ := (hmem day).mp hmax
    obtain rfl := Option.some.inj (hrow.symm.trans hrow')
    exact ⟨rfl, hs, hrow, htotal, fun day' row' hrow' htotal' =>
      hle day' ((hmem day').mpr ⟨hs, row', hrow', htotal'⟩)⟩
  · rintro ⟨rfl, hs, hrow, htotal, hle⟩
    refine ⟨e.1.2, List.max?_eq_some_iff.mpr ⟨(hmem _).mpr ⟨hs, e.2, hrow, htotal⟩, ?_⟩, ?_⟩
    · intro day hday
      obtain ⟨-, row, hrow, htotal⟩ := (hmem day).mp hday
      exact hle day row hrow htotal
    · rw [hrow]
      rfl

theorem mem_latestOpen {e : (ServiceId × Int) × UsageDaily} :
    e ∈ st.latestOpen services ↔ st.IsLatest services e := by
  rw [latestOpen, List.mem_filterMap]
  simp only [latestOpen_eq]
  constructor
  · rintro ⟨service, -, -, h⟩
    exact h
  · intro h
    refine ⟨e.1.1, List.mem_dedup.mpr (List.mem_map.mpr ⟨e, mem_openedRows.mpr ?_, rfl⟩), rfl, h⟩
    exact ⟨h.1, h.2.1, h.2.2.1⟩

theorem nodup_latestOpen (st : UsageStore) (services : List ServiceId) :
    ((st.latestOpen services).map (·.1.1)).Nodup := by
  have hnodup := List.nodup_dedup ((st.openedRows services).map (·.1.1))
  rw [latestOpen, List.Nodup, List.pairwise_map]
  refine List.Pairwise.filterMap _ (fun service service' hne e he e' he' heq => hne ?_) hnodup
  rw [← ((latestOpen_eq service).mp he).1, heq, ((latestOpen_eq service').mp he').1]

/-- A row counts with its last open minute, of a service that has no other. -/
theorem lookup_foldlM_seeFolded (hrolled : st.Rolled) {rows : List ((ServiceId × Int) × UsageDaily)}
    (hrows : ∀ e ∈ rows, st.daily.lookup e.1 = some e.2) (hnodup : (rows.map (·.1.1)).Nodup)
    (last : Map ServiceId Int) : ∃ last', rows.foldlM seeFolded last = .ok last' ∧
      (∀ s, (∀ e ∈ rows, e.1.1 ≠ s) → last'.lookup s = last.lookup s) ∧
      ∀ e ∈ rows, last.lookup e.1.1 = none → last'.lookup e.1.1 =
        topOf e.1.2 fun i => st.folded e.1.1 (e.1.2 * minutesPerDay + i) .openMs := by
  induction rows generalizing last with
  | nil => exact ⟨last, rfl, fun _ _ => rfl, fun e he => by cases he⟩
  | cons e rows ih =>
    obtain ⟨hnot, hnodup⟩ := List.nodup_cons.mp hnodup
    have hstep : ∃ next, seeFolded last e = .ok next ∧ (∀ s, e.1.1 ≠ s →
        next.lookup s = last.lookup s) ∧ (last.lookup e.1.1 = none → next.lookup e.1.1 =
          topOf e.1.2 fun i => st.folded e.1.1 (e.1.2 * minutesPerDay + i) .openMs) := by
      have hrow := hrows e (.head _)
      obtain ⟨cells, hcells⟩ := hrolled e.1 e.2 hrow
      have hpositions : lastPositive ((List.range minutesPerDay).map (cells .openMs)) =
          rposition fun i => st.folded e.1.1 (e.1.2 * minutesPerDay + i) .openMs := by
        rw [lastPositive, rposition, List.length_map, List.length_range]
        refine List.find?_congr fun i hi => ?_
        have hlt := List.mem_range.mp (List.mem_reverse.mp hi)
        have hvalue : st.folded e.1.1 (e.1.2 * minutesPerDay + i) .openMs = cells .openMs i := by
          rw [folded, dayOf_mul_add _ hlt, slotOf_mul_add _ hlt, hrow, hcells]
          exact minute_writeDay cells _ hlt
        simp [hvalue, hlt]
      have hstep : seeFolded last e = .ok ((rposition fun i =>
          st.folded e.1.1 (e.1.2 * minutesPerDay + i) .openMs).elim last fun index =>
            last.insert e.1.1 (e.1.2 * minutesPerDay + (index : Nat))) := by
        rw [seeFolded, hcells, ← hpositions, writeDay, BlobCodec.decode_encode]
        rfl
      refine ⟨_, hstep, fun s hs => ?_, fun hnone => ?_⟩
      · cases rposition fun i => st.folded e.1.1 (e.1.2 * minutesPerDay + i) .openMs with
        | none => rfl
        | some index => exact AList.lookup_insert_ne (Ne.symm hs)
      · rw [topOf]
        cases rposition fun i => st.folded e.1.1 (e.1.2 * minutesPerDay + i) .openMs with
        | none => exact hnone
        | some index => exact AList.lookup_insert _
    obtain ⟨next, hnext, hothers, hown⟩ := hstep
    obtain ⟨last', hlast, hrest, hvalue⟩ := ih (fun e he => hrows e (.tail _ he)) hnodup next
    refine ⟨last', ?_, fun s hs => ?_, fun e' he' hnone => ?_⟩
    · rw [List.foldlM_cons, hnext]
      exact hlast
    · rw [hrest s fun e he => hs e (.tail _ he), hothers s (hs e (.head _))]
    · rcases List.mem_cons.mp he' with rfl | he'
      · rw [hrest e'.1.1 fun e he heq => hnot (List.mem_map.mpr ⟨e, he, heq⟩), hown hnone]
      · refine hvalue e' he' ?_
        rw [hothers e'.1.1 fun heq => hnot (List.mem_map.mpr ⟨e', he', heq.symm⟩), hnone]

/-- A row has open time just when one of its minutes has. -/
theorem total_pos_iff (hrolled : st.Rolled) (hnonneg : ∀ s m, 0 ≤ st.folded s m .openMs) {day : Int}
    {row : UsageDaily} (hrow : st.daily.lookup (s, day) = some row) :
    0 < row.total .openMs ↔ ∃ m, dayOf m = day ∧ 0 < st.folded s m .openMs := by
  rw [total_of_lookup hrolled hrow, Finset.sum_pos_iff_of_nonneg fun i _ => hnonneg s _]
  constructor
  · rintro ⟨i, hi, hvalue⟩
    exact ⟨_, dayOf_mul_add day (Finset.mem_range.mp hi), hvalue⟩
  · rintro ⟨m, rfl, hvalue⟩
    refine ⟨slotOf m, Finset.mem_range.mpr (slotOf_lt m), ?_⟩
    rwa [dayOf_mul_add_slotOf]

theorem lookup_of_folded_pos {m : Int} (hm : 0 < st.folded s m k) :
    ∃ row, st.daily.lookup (s, dayOf m) = some row := by
  refine Option.isSome_iff_exists.mp (AList.lookup_isSome.mpr ?_)
  by_contra hnot
  rw [folded_of_notMem hnot] at hm
  exact Int.lt_irrefl 0 hm

theorem exists_latestOpen (hrolled : st.Rolled) (hnonneg : ∀ s m, 0 ≤ st.folded s m .openMs)
    (hs : s ∈ services) {m : Int} (hm : 0 < st.folded s m .openMs) :
    ∃ e ∈ st.latestOpen services, e.1.1 = s := by
  have hfin : {day | ∃ row, st.daily.lookup (s, day) = some row ∧ 0 < row.total .openMs}.Finite := by
    refine ((List.finite_toSet st.daily.keys).image Prod.snd).subset ?_
    rintro day ⟨row, hrow, -⟩
    refine ⟨(s, day), AList.mem_keys.mp (AList.lookup_isSome.mp ?_), rfl⟩
    rw [hrow]
    rfl
  obtain ⟨row, hrow⟩ := lookup_of_folded_pos hm
  obtain ⟨day, ⟨row, hrow, htotal⟩, hmax⟩ := Extent.exists_isGreatest hfin
    ⟨dayOf m, row, hrow, (total_pos_iff hrolled hnonneg hrow).mpr ⟨m, rfl, hm⟩⟩
  refine ⟨((s, day), row), mem_latestOpen.mpr ⟨hs, hrow, htotal, fun day' row' hrow' htotal' => ?_⟩, rfl⟩
  exact hmax ⟨row', hrow', htotal'⟩

/-- The latest row with open time has the last folded minute with open time. -/
theorem isTop_latestOpen (hrolled : st.Rolled) (hnonneg : ∀ s m, 0 ≤ st.folded s m .openMs)
    {e : (ServiceId × Int) × UsageDaily} (he : st.IsLatest services e) :
    IsTop {m | e.1.1 ∈ services ∧ 0 < st.folded e.1.1 m .openMs}
      (topOf e.1.2 fun i => st.folded e.1.1 (e.1.2 * minutesPerDay + i) .openMs) := by
  obtain ⟨hs, hrow, htotal, hlatest⟩ := he
  have htop := isTop_topOf e.1.2 fun i => st.folded e.1.1 (e.1.2 * minutesPerDay + i) .openMs
  have hday : {m | dayOf m = e.1.2 ∧
        0 < st.folded e.1.1 (e.1.2 * minutesPerDay + slotOf m) .openMs} =
      {m | dayOf m = e.1.2 ∧ 0 < st.folded e.1.1 m .openMs} := by
    refine Set.ext fun m => and_congr_right fun hm => ?_
    rw [← hm, dayOf_mul_add_slotOf]
  rw [hday] at htop
  obtain ⟨m₀, hm₀⟩ := (total_pos_iff hrolled hnonneg hrow).mp htotal
  refine ⟨fun hnone => ?_, fun {x} hx => ?_⟩
  · have hempty := htop.empty hnone
    exact absurd (hempty ▸ hm₀ : m₀ ∈ (∅ : Set Int)) (Set.notMem_empty m₀)
  · obtain ⟨hmem, hmax⟩ := htop.greatest hx
    refine ⟨⟨hs, hmem.2⟩, fun m hm => ?_⟩
    obtain ⟨row, hlook⟩ := lookup_of_folded_pos hm.2
    have hle := hlatest _ row hlook ((total_pos_iff hrolled hnonneg hlook).mpr ⟨m, rfl, hm.2⟩)
    rcases hle.lt_or_eq with hlt | heq
    · have hm' := dayOf_mul_add_slotOf m
      have hx' := dayOf_mul_add_slotOf x
      have hslot := slotOf_lt m
      rw [hmem.1] at hx'
      simp only [minutesPerDay] at *
      omega
    · exact hmax ⟨heq, hm.2⟩

/-- Every service of the list that was ever up has the last minute of it, whichever of the two
representations that minute is in; the others have none. -/
theorem lastOpenMinutes_isGreatest (hrolled : st.Rolled)
    (hnonneg : ∀ s m, 0 ≤ st.folded s m .openMs) :
    ∃ last, st.lastOpenMinutes services = .ok last ∧ ∀ s m, last.lookup s = some m ↔
      s ∈ services ∧ IsGreatest {m | st.OpenAt s m} m := by
  have hfolded : ∃ folded, (st.latestOpen services).foldlM seeFolded ∅ = .ok folded ∧
      ∀ s, IsTop {m | s ∈ services ∧ 0 < st.folded s m .openMs} (folded.lookup s) := by
    obtain ⟨folded, hok, hother, hvalue⟩ := lookup_foldlM_seeFolded hrolled
      (fun e he => (mem_latestOpen.mp he).2.1) (st.nodup_latestOpen services) ∅
    refine ⟨folded, hok, fun s => ?_⟩
    by_cases hrow : ∃ e ∈ st.latestOpen services, e.1.1 = s
    · obtain ⟨e, he, rfl⟩ := hrow
      rw [hvalue e he (AList.lookup_empty _)]
      exact isTop_latestOpen hrolled hnonneg (mem_latestOpen.mp he)
    · rw [hother s fun e he heq => hrow ⟨e, he, heq⟩, AList.lookup_empty]
      refine ⟨fun _ => ?_, fun h => by cases h⟩
      refine Set.eq_empty_of_forall_notMem fun m hm => hrow ?_
      exact exists_latestOpen hrolled hnonneg hm.1 hm.2
  obtain ⟨folded, hok, htop⟩ := hfolded
  by_cases hempty : services.isEmpty = true
  · refine ⟨∅, ?_, fun s m => ?_⟩
    · rw [lastOpenMinutes, if_pos hempty]
      rfl
    · rw [List.isEmpty_iff.mp hempty]
      exact iff_of_false (fun h => by cases h) fun h => by cases h.1
  · refine ⟨(st.liveDays services).foldl st.seeLive folded, ?_, fun s m => ?_⟩
    · rw [lastOpenMinutes, if_neg hempty, hok]
      rfl
    · rw [(isTop_foldl_seeLive (htop s)).eq_some_iff]
      have hlive (m : Int) : (s, dayOf m) ∈ st.liveDays services ∧ 0 < st.slot s m .openMs ↔
          s ∈ services ∧ 0 < st.slot s m .openMs := by
        rw [liveDays, List.mem_insertionSort, List.mem_filter, decide_eq_true_iff]
        refine ⟨fun h => ⟨h.1.2, h.2⟩, fun h => ⟨⟨AList.mem_keys.mp ?_, h.1⟩, h.2⟩⟩
        by_contra hnot
        rw [slot_of_notMem hnot] at h
        exact Int.lt_irrefl 0 h.2
      by_cases hs : s ∈ services
      · rw [and_iff_right hs]
        refine iff_of_eq (congrArg (IsGreatest · m) (Set.ext fun m => ?_))
        simp only [Set.mem_union, Set.mem_ofPred_eq, hlive, hs, true_and, OpenAt]
      · refine iff_of_false (fun h => ?_) fun h => hs h.1
        rcases h.1 with h | h
        · exact hs h.1
        · exact hs ((hlive m).mp h).1

end UsageStore

/-! What a service sent at ten minutes is in the totals of a window from one o'clock on, once its day
is folded, and not in the series of the window. -/

def noon : MetricsQuery where
  services := [1]
  people := []
  metrics := [.bytesOut]
  start := 3600
  stop := 36000

theorem folded_lone (slots : Slots) (index : Nat) (s : ServiceId) (m : Int) (k : Slots) :
    @UsageStore.folded plainBlobs (@UsageStore.foldDay plainBlobs (lone slots index) 0) s m k =
      if (s, dayOf m) = (1, 0) ∧ k = slots ∧ slotOf m = index then 1 else 0 := by
  by_cases hs : s = 1
  · subst hs
    rw [@UsageStore.folded_foldDay plainBlobs (lone slots index) 1 m 0 k
      (AList.mem_keys.mpr List.mem_cons_self), slot_lone]
    by_cases hm : dayOf m = 0
    · rw [if_pos ⟨hm, AList.mem_keys.mpr List.mem_cons_self⟩]
    · rw [if_neg fun h => hm h.1, if_neg fun h => hm (congrArg Prod.snd h.1)]
      rfl
  · rw [if_neg fun h => hs (congrArg Prod.fst h.1)]
    refine @UsageStore.folded_of_notMem plainBlobs _ s k m fun hrow => ?_
    rw [← AList.lookup_isSome, @UsageStore.lookup_daily_foldDay plainBlobs] at hrow
    rw [if_neg fun h => hs ?_] at hrow
    · cases hrow
    · exact List.mem_singleton.mp (AList.mem_keys.mp h.2)

theorem lastOpenMinutes_lone : ∃ last,
    @UsageStore.lastOpenMinutes plainBlobs (lone .openMs 5) [1] = .ok last ∧
      last.lookup 1 = some 5 := by
  obtain ⟨last, hok, hlast⟩ := @UsageStore.lastOpenMinutes_isGreatest plainBlobs (lone .openMs 5) [1]
    (rolled_lone _ _) fun _ _ => le_rfl
  refine ⟨last, hok, (hlast 1 5).mpr ⟨List.mem_singleton_self 1, .inr ?_, fun m hm => ?_⟩⟩
  · rw [slot_lone]
    decide
  · rcases hm with hm | hm
    · exact absurd hm (Int.lt_irrefl 0)
    · rw [slot_lone] at hm
      split at hm
      · rename_i h
        have hday := (Prod.mk.inj h.1).2
        rw [← dayOf_mul_add_slotOf m, hday, h.2.2]
        decide
      · exact absurd hm (Int.lt_irrefl 0)

end TunnelWeaver.Server
