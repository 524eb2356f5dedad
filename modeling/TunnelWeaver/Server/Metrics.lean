import TunnelWeaver.Lib.Series
import TunnelWeaver.Server.CoveredSpan
import TunnelWeaver.Server.Granularity
import TunnelWeaver.Server.SlotCover

/-! The figures of the console (`metrics.rs`). A window is read from two representations: a folded
day from its rollup row, a live one from its slot arrays. -/

namespace TunnelWeaver.Server

open Series (sumAt sumAt_append sumAt_flatMap_of_nodup)

/-! ## Queries -/

/-- A metrics request. The only function is the sum, and the engine chooses the scale. -/
structure MetricsQuery where
  services : List ServiceId
  people : List String
  metrics : List Slots
  start : Int
  stop : Int

/-- One series: its total, and the value of each slot. -/
structure MetricsSeries where
  service : ServiceId
  metric : Slots
  total : Int
  slots : List (Int × Int)
  deriving DecidableEq

structure MetricsAnswer where
  granularity : Int
  start : Int
  stop : Int
  series : List MetricsSeries
  deriving DecidableEq

namespace Granularity

def minutesPerSlot (g : Granularity) : Nat := (g.secs / 60).toNat

/-- The slots of a day. -/
def slotsPerDay : Granularity → Nat
  | minute => 1440
  | hour => 24
  | day => 1

theorem minutesPerSlot_mul (g : Granularity) : g.minutesPerSlot * g.slotsPerDay = minutesPerDay := by
  cases g <;> rfl

end Granularity

/-- The buffers of the series by service and metric. -/
abbrev Buffers := Map (ServiceId × Slots) (List Int)

/-- The values that are added to the slots of a series. -/
abbrev SlotValues := (ServiceId × Slots) × List (Int × Int)

/-- The offset of a slot in a buffer, of a slot of the window. -/
def slotOffset (firstSlot : Int) (slots : Nat) (slot : Int) : Option Nat :=
  if firstSlot ≤ slot ∧ (slot - firstSlot).toNat < slots then some (slot - firstSlot).toNat else none

/-- Adds values to the buffer of their series; other series are not asked for. -/
def addSlots (firstSlot : Int) (slots : Nat) (values : Buffers) (u : SlotValues) : Buffers :=
  match values.lookup u.1 with
  | some buffer => values.insert u.1 (Series.fill (slotOffset firstSlot slots) buffer u.2)
  | none => values

/-- The distinct slot columns that a metric list needs, in request order. -/
def slotsOf (metrics : List Slots) : List Slots := metrics.eraseDups

/-- The values of the minutes from `first` to `last` of an array, by the slots they fall in. -/
def liveValues (g : Granularity) (day first last : Int) (values : Nat → Int) : List (Int × Int) :=
  ((List.range minutesPerDay).filter fun (index : Nat) =>
    first ≤ day * minutesPerDay + index ∧ day * minutesPerDay + index ≤ last).map fun (index : Nat) =>
      ((day * minutesPerDay + index) / g.minutesPerSlot, values index)

namespace UsageStore

variable [BlobCodec] (st : UsageStore)

/-- The explicit services and those of the named people, in first-seen order. -/
def resolveServices (q : MetricsQuery) : List ServiceId :=
  let names := q.people.map String.toLower
  (q.services ++ (st.services.entries.filter fun e => e.2.person ∈ names).map (·.1)).eraseDups

/-- What a rollup row adds to the slots of a metric. -/
def rowValues (g : Granularity) (day : Int) (row : UsageDaily) (k : Slots) :
    Except UsageError (List (Int × Int)) :=
  match g with
  | .day => .ok [(day, row.total k)]
  | .hour => (decodeBlob (row.hours k)).map fun hours =>
      (hours.take hoursPerDay).mapIdx fun i v => (day * hoursPerDay + i, v)
  | .minute => (decodeBlob (row.minutes k)).map fun minutes =>
      (minutes.take minutesPerDay).mapIdx fun i v => (day * minutesPerDay + i, v)

/-- The rollup rows of the days from `first` to `last`. -/
def dailyRows (services : List ServiceId) (first last : Int) :
    List ((ServiceId × Int) × UsageDaily) :=
  (st.daily.keys.filter fun pair => pair.1 ∈ services ∧ first ≤ pair.2 ∧ pair.2 ≤ last).filterMap
    fun pair => (st.daily.lookup pair).map fun row => (pair, row)

/-- What the rollup adds to the series; the days with a row are not read again. -/
def fillFolded (services : List ServiceId) (metrics : List Slots) (g : Granularity)
    (start stop : Int) : Except UsageError (List SlotValues × List (ServiceId × Int)) := do
  let rows := st.dailyRows services (start / secsPerDay) ((stop - 1) / secsPerDay)
  let values ← rows.mapM fun e => metrics.mapM fun k =>
    (rowValues g e.1.2 e.2 k).map fun values => ((e.1.1, k), values)
  return (values.flatten, rows.map (·.1))

/-- What the live days add to the series, of the service-days that are not folded. -/
def fillLive (services : List ServiceId) (metrics : List Slots) (g : Granularity)
    (start stop : Int) (folded : List (ServiceId × Int)) : List SlotValues :=
  let firstMinute := start / 60
  let lastMinute := (stop - 1) / 60
  let days := (st.liveDays services).filter fun pair =>
    firstMinute / minutesPerDay ≤ pair.2 ∧ pair.2 ≤ lastMinute / minutesPerDay ∧
      folded.contains pair = false
  days.flatMap fun pair => (slotsOf metrics).map fun k =>
    ((pair.1, k), liveValues g pair.2 firstMinute lastMinute (st.live.cell pair k))

/-- The buffers of a query. -/
def fillSeries (services : List ServiceId) (metrics : List Slots) (g : Granularity)
    (start stop firstSlot : Int) (slots : Nat) : Except UsageError Buffers := do
  if services.isEmpty ∨ metrics.isEmpty ∨ slots = 0 then return ∅
  let zeroes := Map.tabulate (services ×ˢ metrics) fun _ => List.replicate slots (0 : Int)
  let (values, folded) ← st.fillFolded services metrics g start stop
  return (values ++ st.fillLive services metrics g start stop folded).foldl
    (addSlots firstSlot slots) zeroes

/-- `MetricsStore::query`. -/
def queryMetrics (q : MetricsQuery) : Except UsageError MetricsAnswer := do
  let services := st.resolveServices q
  let g := Granularity.choose q.start q.stop
  let range := slotRange q.start q.stop g
  let values ← st.fillSeries services q.metrics g q.start q.stop range.1 range.2
  let series := (services ×ˢ q.metrics).map fun key =>
    let buffer := (values.lookup key).getD []
    { service := key.1, metric := key.2, total := buffer.sum
      slots := buffer.mapIdx fun i value => (range.1 + i, value) }
  return { granularity := g.secs, start := q.start, stop := q.stop, series }

end UsageStore

/-- The slots of a query. -/
abbrev MetricsQuery.range (q : MetricsQuery) : Int × Nat :=
  slotRange q.start q.stop (Granularity.choose q.start q.stop)

/-! ## Slots of a day -/

namespace Granularity

variable {g : Granularity} {x : Int}

/-- The minutes of a slot are consecutive minutes of one day. -/
theorem minute_of_slot (g : Granularity) (x : Int) {i : Nat} (hi : i < g.minutesPerSlot) :
    dayOf (x * g.minutesPerSlot + i) = x / g.slotsPerDay ∧
      slotOf (x * g.minutesPerSlot + i) = (x % g.slotsPerDay).toNat * g.minutesPerSlot + i := by
  cases g <;>
    simp only [minutesPerSlot, secs, slotsPerDay, dayOf, slotOf, minutesPerDay, Int.reduceDiv,
      Int.reduceToNat, Nat.cast_ofNat, Nat.cast_one] at * <;> omega

theorem ediv_minutesPerSlot (g : Granularity) (x : Int) {i : Nat} (hi : i < g.minutesPerSlot) :
    (x * g.minutesPerSlot + i) / g.minutesPerSlot = x := by
  cases g <;>
    simp only [minutesPerSlot, secs, Int.reduceDiv, Int.reduceToNat, Nat.cast_ofNat,
      Nat.cast_one] at * <;> omega

theorem exists_minute (g : Granularity) (m : Int) :
    ∃ i < g.minutesPerSlot, m / g.minutesPerSlot * g.minutesPerSlot + (i : Nat) = m := by
  refine ⟨(m % g.minutesPerSlot).toNat, ?_, ?_⟩ <;>
    cases g <;>
      simp only [minutesPerSlot, secs, Int.reduceDiv, Int.reduceToNat, Nat.cast_ofNat,
        Nat.cast_one] <;> omega

theorem slotsPerDay_pos (g : Granularity) : 0 < g.slotsPerDay := by
  cases g <;> decide

theorem mod_slotsPerDay_lt (g : Granularity) (x : Int) : (x % g.slotsPerDay).toNat < g.slotsPerDay := by
  have hpos := g.slotsPerDay_pos
  have hlt := Int.emod_lt_of_pos x (Int.ofNat_lt.mpr hpos)
  have hnonneg := Int.emod_nonneg x (Int.ofNat_ne_zero.mpr hpos.ne')
  omega

end Granularity

/-- What the minutes of a slot sum up to, of an array of a day. -/
def blockSum (g : Granularity) (values : Nat → Int) (h : Nat) : Int :=
  ∑ i ∈ Finset.range g.minutesPerSlot, values (h * g.minutesPerSlot + i)

theorem sum_map_range (n : Nat) (f : Nat → Int) :
    ((List.range n).map f).sum = ∑ i ∈ Finset.range n, f i := rfl

theorem sumAt_map_range {n : Nat} {slot : Nat → Int} {v : Nat → Int} {x : Int} (h₀ : Nat)
    (h : ∀ h < n, slot h = x ↔ h = h₀) :
    sumAt ((List.range n).map fun h => (slot h, v h)) x = if h₀ < n then v h₀ else 0 := by
  rw [sumAt, List.map_map, sum_map_range]
  have hterm (i : Nat) (hi : i ∈ Finset.range n) :
      ((fun e : Int × Int => if e.1 = x then e.2 else 0) ∘ fun h => (slot h, v h)) i =
        if i = h₀ then v i else 0 := if_congr (h i (Finset.mem_range.mp hi)) rfl rfl
  rw [Finset.sum_congr rfl hterm, Finset.sum_ite_eq']
  exact if_congr Finset.mem_range rfl rfl

/-- The hours of a day add up to the minutes of the day. -/
theorem sum_blocks (f : Nat → Int) (n m : Nat) :
    ∑ h ∈ Finset.range n, ∑ i ∈ Finset.range m, f (h * m + i) = ∑ i ∈ Finset.range (n * m), f i := by
  induction n with
  | zero => simp
  | succ n ih => rw [Finset.sum_range_succ, ih, Nat.succ_mul, Finset.sum_range_add]

/-- Of a sum over a day, the part of a block. -/
theorem sum_block {N o n : Nat} (hle : o + n ≤ N) (f : Nat → Int) :
    ∑ i ∈ Finset.range N, (if o ≤ i ∧ i < o + n then f i else 0) =
      ∑ i ∈ Finset.range n, f (o + i) := by
  obtain ⟨rest, rfl⟩ := Nat.exists_eq_add_of_le hle
  rw [Finset.sum_range_add, Finset.sum_range_add]
  have hbefore : ∑ i ∈ Finset.range o, (if o ≤ i ∧ i < o + n then f i else 0) = 0 :=
    Finset.sum_eq_zero fun i hi => if_neg fun h => by
      have := Finset.mem_range.mp hi
      omega
  have hafter : ∑ i ∈ Finset.range rest,
      (if o ≤ o + n + i ∧ o + n + i < o + n then f (o + n + i) else 0) = 0 :=
    Finset.sum_eq_zero fun i _ => if_neg fun h => by omega
  rw [hbefore, hafter, zero_add, add_zero]
  exact Finset.sum_congr rfl fun i hi => if_pos ⟨by omega, by
    have := Finset.mem_range.mp hi
    omega⟩

/-- What the live minutes of a window add to a slot. -/
theorem sumAt_liveValues (g : Granularity) (day first last : Int) (values : Nat → Int) (x : Int) :
    sumAt (liveValues g day first last values) x =
      if day = x / g.slotsPerDay then
        blockSum g (fun i => if first ≤ day * minutesPerDay + i ∧ day * minutesPerDay + i ≤ last
          then values i else 0) (x % g.slotsPerDay).toNat
      else 0 := by
  have hmul := g.minutesPerSlot_mul
  have hlt := g.mod_slotsPerDay_lt x
  generalize hh : (x % g.slotsPerDay).toNat = h at hlt
  have hterm (i : Nat) (hi : i ∈ Finset.range minutesPerDay) :
      (if (first ≤ day * minutesPerDay + i ∧ day * minutesPerDay + i ≤ last) ∧
          (day * minutesPerDay + i) / g.minutesPerSlot = x then values i else 0) =
        if h * g.minutesPerSlot ≤ i ∧ i < h * g.minutesPerSlot + g.minutesPerSlot then
          if day = x / g.slotsPerDay then
            if first ≤ day * minutesPerDay + i ∧ day * minutesPerDay + i ≤ last then values i else 0
          else 0
        else 0 := by
    have hi := Finset.mem_range.mp hi
    have hiff : (day * minutesPerDay + i) / g.minutesPerSlot = x ↔
        (h * g.minutesPerSlot ≤ i ∧ i < h * g.minutesPerSlot + g.minutesPerSlot) ∧
          day = x / g.slotsPerDay := by
      rw [← hh]
      cases g <;>
        simp only [Granularity.minutesPerSlot, Granularity.secs, Granularity.slotsPerDay,
          minutesPerDay, Int.reduceDiv, Int.reduceToNat, Nat.cast_ofNat, Nat.cast_one] at hi ⊢ <;>
        omega
    rw [← ite_and, ← ite_and]
    refine if_congr ((and_congr_right fun _ => hiff).trans ⟨?_, ?_⟩) rfl rfl
    · rintro ⟨hwindow, ⟨hle, hday⟩⟩
      exact ⟨⟨hle, hday⟩, hwindow⟩
    · rintro ⟨⟨hle, hday⟩, hwindow⟩
      exact ⟨hwindow, hle, hday⟩
  have hfit : h * g.minutesPerSlot + g.minutesPerSlot ≤ minutesPerDay := by
    rw [← hmul, ← Nat.succ_mul, Nat.mul_comm g.minutesPerSlot]
    exact Nat.mul_le_mul_right _ hlt
  have hsum : sumAt (liveValues g day first last values) x = ∑ i ∈ Finset.range minutesPerDay,
      if (first ≤ day * minutesPerDay + i ∧ day * minutesPerDay + i ≤ last) ∧
          (day * minutesPerDay + i) / g.minutesPerSlot = x then values i else 0 := by
    rw [sumAt, liveValues, List.map_map, Series.sum_map_filter, sum_map_range]
    refine Finset.sum_congr rfl fun i _ => ?_
    rw [ite_and, Function.comp_apply]
    exact if_congr decide_eq_true_iff rfl rfl
  rw [hsum, Finset.sum_congr rfl hterm, sum_block hfit]
  split
  · rfl
  · exact Finset.sum_const_zero

theorem mapIdx_range {α β : Type} (n : Nat) (f : Nat → α) (g : Nat → α → β) :
    ((List.range n).map f).mapIdx g = (List.range n).map fun i => g i (f i) := by
  refine List.ext_getElem (by simp) fun i hi hi' => ?_
  simp

theorem blockSum_minute (values : Nat → Int) (h : Nat) : blockSum .minute values h = values h := by
  change ∑ i ∈ Finset.range 1, values (h * 1 + i) = _
  rw [Finset.sum_range_one, Nat.mul_one, Nat.add_zero]

/-! ## What a query reads -/

namespace UsageStore

/-- The hours of an array are its blocks. -/
theorem hourSums_eq (values : Nat → Int) :
    hourSums values = (List.range hoursPerDay).map (blockSum .hour values) := rfl

theorem sum_hourSums (values : Nat → Int) : (hourSums values).sum = blockSum .day values 0 := by
  rw [hourSums_eq, sum_map_range]
  refine (sum_blocks values hoursPerDay 60).trans ?_
  rw [blockSum, Nat.zero_mul]
  exact Finset.sum_congr rfl fun i _ => by rw [Nat.zero_add]

variable [BlobCodec]

/-- Every rollup row was written by a fold. -/
def Rolled (st : UsageStore) : Prop :=
  ∀ pair row, st.daily.lookup pair = some row → ∃ cells, row = writeDay cells

/-- What a query sees of a minute: its folded value where the day has a row, and of a live day the
minutes from `first` to `last`. -/
def seen (st : UsageStore) (first last : Int) (service : ServiceId) (minute : Int) (k : Slots) : Int :=
  if (service, dayOf minute) ∈ st.daily then st.folded service minute k
  else if first ≤ minute ∧ minute ≤ last then st.slot service minute k else 0

/-- A row of a fold adds the sums of the minutes of each slot. -/
theorem rowValues_writeDay (g : Granularity) (day : Int) (cells : DaySlots) (k : Slots) :
    rowValues g day (writeDay cells) k = .ok ((List.range g.slotsPerDay).map fun h =>
      (day * g.slotsPerDay + (h : Nat), blockSum g (cells k) h)) := by
  cases g with
  | minute =>
    rw [rowValues, writeDay, BlobCodec.decode_encode, Except.map,
      List.take_of_length_le (by simp), mapIdx_range]
    exact congrArg Except.ok (List.map_congr_left fun h _ => by rw [blockSum_minute]; rfl)
  | hour =>
    rw [rowValues, writeDay, BlobCodec.decode_encode, Except.map, hourSums_eq,
      List.take_of_length_le (by simp), mapIdx_range]
    rfl
  | day =>
    rw [rowValues, writeDay]
    change Except.ok [(day, (hourSums (cells k)).sum)] =
      Except.ok [(day * (1 : Nat) + (0 : Nat), blockSum .day (cells k) 0)]
    rw [sum_hourSums, Nat.cast_one, mul_one, Nat.cast_zero, add_zero]

/-! ## The values of a series -/

variable {st : UsageStore} {services : List ServiceId} {metrics : List Slots} {g : Granularity}
  {start stop firstSlot : Int} {s : ServiceId} {k : Slots}

omit [BlobCodec] in
/-- Each series gets the values that are added to it. -/
theorem lookup_addSlots {slots : Nat} (us : List SlotValues) (values : Buffers)
    (key : ServiceId × Slots) : (us.foldl (addSlots firstSlot slots) values).lookup key =
      (values.lookup key).map fun buffer => Series.fill (slotOffset firstSlot slots) buffer
        ((us.filter fun u => u.1 = key).flatMap (·.2)) := by
  induction us generalizing values with
  | nil => simp [Series.fill]
  | cons u us ih =>
    rw [List.foldl_cons, ih]
    have hstep : (addSlots firstSlot slots values u).lookup key = (values.lookup key).map fun buffer =>
        if u.1 = key then Series.fill (slotOffset firstSlot slots) buffer u.2 else buffer := by
      rw [addSlots]
      cases hlook : values.lookup u.1 with
      | none =>
        by_cases hkey : u.1 = key
        · rw [← hkey, hlook]
          rfl
        · simp [hkey]
      | some buffer =>
        rw [Map.lookup_insert_ite]
        by_cases hkey : u.1 = key
        · rw [if_pos hkey.symm, ← hkey, hlook]
          simp
        · rw [if_neg fun h => hkey h.symm]
          simp [hkey]
    rw [hstep, Option.map_map]
    refine congrFun (congrArg Option.map (funext fun buffer => ?_)) _
    rw [Function.comp_apply]
    by_cases hkey : u.1 = key
    · rw [if_pos hkey, List.filter_cons_of_pos (by simpa using hkey), List.flatMap_cons,
        Series.fill, Series.fill, Series.fill, List.foldl_append]
    · rw [if_neg hkey, List.filter_cons_of_neg (by simpa using hkey)]

omit [BlobCodec] in
/-- Of values that are given for each metric, those of one series. -/
theorem filter_values {α : Type} (l : List α) (service : α → ServiceId)
    (vals : α → Slots → List (Int × Int)) (hmetrics : metrics.Nodup) (hk : k ∈ metrics) :
    ((l.flatMap fun a => metrics.map fun k => ((service a, k), vals a k)).filter
        fun u => u.1 = (s, k)).flatMap (·.2) =
      l.flatMap fun a => if service a = s then vals a k else [] := by
  rw [List.filter_flatMap, List.flatMap_assoc]
  refine List.flatMap_congr fun a _ => ?_
  rw [List.filter_map, List.flatMap_map]
  split
  · rename_i hservice
    have hone : metrics.filter ((fun u : SlotValues => decide (u.1 = (s, k))) ∘
        fun k => ((service a, k), vals a k)) = [k] := by
      rw [List.filter_congr (q := (· == k)) fun k' _ => ?_, List.filter_beq,
        List.count_eq_one_of_mem hmetrics hk, List.replicate_one]
      rw [Function.comp_apply, hservice, Bool.eq_iff_iff, decide_eq_true_iff, beq_iff_eq]
      exact ⟨fun h => (Prod.mk.inj h).2, fun h => congrArg _ h⟩
    rw [hone, List.flatMap_singleton]
  · rename_i hother
    rw [List.filter_eq_nil_iff.mpr fun k' _ => ?_, List.flatMap_nil]
    rw [Function.comp_apply, decide_eq_true_iff]
    exact fun h => hother (Prod.mk.inj h).1

/-- What the rollup adds to a series for one service-day. -/
def rollupValues (st : UsageStore) (g : Granularity) (pair : ServiceId × Int) (k : Slots) :
    List (Int × Int) :=
  (List.range g.slotsPerDay).map fun h => (pair.2 * g.slotsPerDay + (h : Nat),
    blockSum g (fun i => st.folded pair.1 (pair.2 * minutesPerDay + i) k) h)

omit [BlobCodec] in
theorem block_lt (g : Granularity) {h i : Nat} (hh : h < g.slotsPerDay) (hi : i < g.minutesPerSlot) :
    h * g.minutesPerSlot + i < minutesPerDay := by
  rw [← g.minutesPerSlot_mul, Nat.mul_comm g.minutesPerSlot]
  calc h * g.minutesPerSlot + i < h * g.minutesPerSlot + g.minutesPerSlot := by omega
    _ = (h + 1) * g.minutesPerSlot := (Nat.succ_mul _ _).symm
    _ ≤ g.slotsPerDay * g.minutesPerSlot := Nat.mul_le_mul_right _ hh

theorem rowValues_of_lookup (hrolled : st.Rolled) {pair : ServiceId × Int} {row : UsageDaily}
    (hrow : st.daily.lookup pair = some row) (g : Granularity) (k : Slots) :
    rowValues g pair.2 row k = .ok (st.rollupValues g pair k) := by
  obtain ⟨cells, rfl⟩ := hrolled pair row hrow
  rw [rowValues_writeDay, rollupValues]
  refine congrArg Except.ok (List.map_congr_left fun h hh => congrArg _ ?_)
  refine Finset.sum_congr rfl fun i hi => ?_
  have hlt := block_lt g (List.mem_range.mp hh) (Finset.mem_range.mp hi)
  dsimp only
  rw [folded, dayOf_mul_add pair.2 hlt, slotOf_mul_add pair.2 hlt, hrow]
  exact (minute_writeDay cells k hlt).symm

omit [BlobCodec] in
theorem mapM_ok {ε α β : Type} {f : α → Except ε β} {f' : α → β} {l : List α}
    (h : ∀ a ∈ l, f a = .ok (f' a)) : l.mapM f = .ok (l.map f') := by
  induction l with
  | nil => rfl
  | cons a l ih =>
    rw [List.mapM_cons, h a List.mem_cons_self, ih fun b hb => h b (List.mem_cons_of_mem a hb)]
    rfl

/-- The service-days with a row that a query reads. -/
def rolledDays (st : UsageStore) (services : List ServiceId) (start stop : Int) :
    List (ServiceId × Int) :=
  st.daily.keys.filter fun pair =>
    pair.1 ∈ services ∧ start / secsPerDay ≤ pair.2 ∧ pair.2 ≤ (stop - 1) / secsPerDay

theorem fillFolded_eq (hrolled : st.Rolled) (services : List ServiceId) (metrics : List Slots)
    (g : Granularity) (start stop : Int) : st.fillFolded services metrics g start stop =
      .ok ((st.rolledDays services start stop).flatMap fun pair => metrics.map fun k =>
        ((pair.1, k), st.rollupValues g pair k), st.rolledDays services start stop) := by
  have hkeys : (st.dailyRows services (start / secsPerDay) ((stop - 1) / secsPerDay)).map (·.1) =
      st.rolledDays services start stop := by
    rw [dailyRows, List.map_filterMap]
    refine (List.filterMap_congr fun pair hpair => ?_).trans List.filterMap_some
    obtain ⟨row, hrow⟩ := Option.isSome_iff_exists.mp
      (AList.lookup_isSome.mpr (AList.mem_keys.mpr (List.mem_of_mem_filter hpair)))
    rw [hrow]
    rfl
  have hrows : (st.dailyRows services (start / secsPerDay) ((stop - 1) / secsPerDay)).mapM
      (fun e => metrics.mapM fun k => (rowValues g e.1.2 e.2 k).map fun values => ((e.1.1, k), values)) =
      .ok ((st.dailyRows services (start / secsPerDay) ((stop - 1) / secsPerDay)).map fun e =>
        metrics.map fun k => ((e.1.1, k), st.rollupValues g e.1 k)) := by
    refine mapM_ok fun e he => mapM_ok fun k _ => ?_
    obtain ⟨pair, -, hpair⟩ := List.mem_filterMap.mp he
    obtain ⟨row, hrow, rfl⟩ := Option.map_eq_some_iff.mp hpair
    rw [rowValues_of_lookup hrolled hrow]
    rfl
  rw [fillFolded, hrows]
  change Except.ok (_, _) = _
  rw [hkeys, ← hkeys, List.flatMap_map]
  rfl

theorem sumAt_rollupValues (g : Granularity) (pair : ServiceId × Int) (k : Slots) (x : Int) :
    sumAt (st.rollupValues g pair k) x = if pair.2 = x / g.slotsPerDay then
      ∑ i ∈ Finset.range g.minutesPerSlot, st.folded pair.1 (x * g.minutesPerSlot + i) k else 0 := by
  split
  · rename_i hday
    rw [rollupValues, sumAt_map_range (x % g.slotsPerDay).toNat fun h hh => ?_,
      if_pos (g.mod_slotsPerDay_lt x), blockSum]
    · refine Finset.sum_congr rfl fun i hi => ?_
      obtain ⟨hdayOf, hslotOf⟩ := g.minute_of_slot x (Finset.mem_range.mp hi)
      rw [← dayOf_mul_add_slotOf (x * g.minutesPerSlot + i), hdayOf, hslotOf, hday]
    · rw [hday]
      cases g <;> simp only [Granularity.slotsPerDay, Nat.cast_ofNat, Nat.cast_one] at * <;> omega
  · rename_i hother
    rw [rollupValues, sumAt_map_range g.slotsPerDay fun h hh => ?_,
      if_neg (Nat.lt_irrefl _)]
    refine iff_of_false (fun heq => hother ?_) hh.ne
    rw [← heq]
    cases g <;> simp only [Granularity.slotsPerDay, Nat.cast_ofNat, Nat.cast_one] at * <;> omega

theorem nodup_rolledDays : (st.rolledDays services start stop).Nodup :=
  st.daily.nodupKeys.filter _

/-- What the rows of the rollup add to a slot of a series. -/
theorem sumAt_folded (hmetrics : metrics.Nodup) (hk : k ∈ metrics)
    (hs : s ∈ services) {x : Int} (hx : start / secsPerDay ≤ x / g.slotsPerDay ∧
      x / g.slotsPerDay ≤ (stop - 1) / secsPerDay) :
    sumAt ((((st.rolledDays services start stop).flatMap fun pair => metrics.map fun k =>
        ((pair.1, k), st.rollupValues g pair k)).filter fun u => u.1 = (s, k)).flatMap (·.2)) x =
      if (s, x / g.slotsPerDay) ∈ st.daily then
        ∑ i ∈ Finset.range g.minutesPerSlot, st.folded s (x * g.minutesPerSlot + i) k
      else 0 := by
  rw [filter_values _ (·.1) (fun pair k => st.rollupValues g pair k) hmetrics hk]
  have hmem : (s, x / (g.slotsPerDay : Int)) ∈ st.rolledDays services start stop ↔
      (s, x / (g.slotsPerDay : Int)) ∈ st.daily := by
    rw [rolledDays, List.mem_filter, ← AList.mem_keys]
    exact and_iff_left (decide_eq_true ⟨hs, hx⟩)
  rw [sumAt_flatMap_of_nodup nodup_rolledDays (a := (s, x / g.slotsPerDay))]
  · by_cases hrow : (s, x / (g.slotsPerDay : Int)) ∈ st.daily
    · rw [if_pos (hmem.mpr hrow), if_pos hrow, if_pos rfl, sumAt_rollupValues, if_pos rfl]
    · rw [if_neg fun h => hrow (hmem.mp h), if_neg hrow]
  · intro pair _ hne
    split
    · rename_i hservice
      rw [sumAt_rollupValues, if_neg fun hday => hne (Prod.ext hservice hday)]
    · rfl

omit [BlobCodec] in
theorem slotsOf_of_nodup (h : metrics.Nodup) : slotsOf metrics = metrics := by
  rw [slotsOf]
  induction metrics with
  | nil => rfl
  | cons k metrics ih =>
    obtain ⟨hk, hnodup⟩ := List.nodup_cons.mp h
    have hfilter : metrics.filter (fun b => !b == k) = metrics := by
      refine List.filter_eq_self.mpr fun b hb => ?_
      rw [Bool.not_eq_true', beq_eq_false_iff_ne]
      exact fun heq => hk (heq ▸ hb)
    rw [List.eraseDups_cons, hfilter, ih hnodup]

theorem slot_of_notMem {m : Int} (h : (s, dayOf m) ∉ st.live) : st.slot s m k = 0 := by
  rw [slot, LiveRows.cell, AList.lookup_eq_none.mpr h]
  rfl

/-- What the arrays of the live days add to a slot of a series. -/
theorem sumAt_live (hmetrics : metrics.Nodup) (hk : k ∈ metrics) (hs : s ∈ services)
    {folded : List (ServiceId × Int)} {x : Int} (hx : start / secsPerDay ≤ x / g.slotsPerDay ∧
      x / g.slotsPerDay ≤ (stop - 1) / secsPerDay) :
    sumAt (((st.fillLive services metrics g start stop folded).filter
        fun u => u.1 = (s, k)).flatMap (·.2)) x =
      if (s, x / g.slotsPerDay) ∈ folded then 0
      else ∑ i ∈ Finset.range g.minutesPerSlot,
        if start / 60 ≤ x * g.minutesPerSlot + i ∧ x * g.minutesPerSlot + i ≤ (stop - 1) / 60 then
          st.slot s (x * g.minutesPerSlot + i) k else 0 := by
  rw [fillLive, slotsOf_of_nodup hmetrics]
  generalize hdays : (st.liveDays services).filter (fun pair =>
    start / 60 / minutesPerDay ≤ pair.2 ∧ pair.2 ≤ (stop - 1) / 60 / minutesPerDay ∧
      folded.contains pair = false) = days
  have hnodup : days.Nodup := by
    rw [← hdays, liveDays]
    exact ((List.perm_insertionSort _ _).nodup_iff.mpr (st.live.nodupKeys.filter _)).filter _
  have hmem : (s, x / (g.slotsPerDay : Int)) ∈ days ↔ (s, x / (g.slotsPerDay : Int)) ∈ st.live ∧
      (s, x / (g.slotsPerDay : Int)) ∉ folded := by
    rw [← hdays, List.mem_filter, liveDays, List.mem_insertionSort, List.mem_filter,
      ← AList.mem_keys, decide_eq_true_iff, decide_eq_true_iff, List.contains_eq_mem,
      decide_eq_false_iff_not]
    simp only [secsPerDay, minutesPerDay] at hx ⊢
    constructor
    · rintro ⟨⟨hlive, -⟩, -, -, hfolded⟩
      exact ⟨hlive, hfolded⟩
    · rintro ⟨hlive, hfolded⟩
      exact ⟨⟨hlive, hs⟩, by omega, by omega, hfolded⟩
  have hblock : blockSum g (fun i => if start / 60 ≤ x / g.slotsPerDay * minutesPerDay + i ∧
        x / g.slotsPerDay * minutesPerDay + i ≤ (stop - 1) / 60 then
          st.live.cell (s, x / g.slotsPerDay) k i else 0) (x % g.slotsPerDay).toNat =
      ∑ i ∈ Finset.range g.minutesPerSlot,
        if start / 60 ≤ x * g.minutesPerSlot + i ∧ x * g.minutesPerSlot + i ≤ (stop - 1) / 60 then
          st.slot s (x * g.minutesPerSlot + i) k else 0 := by
    refine Finset.sum_congr rfl fun i hi => ?_
    obtain ⟨hdayOf, hslotOf⟩ := g.minute_of_slot x (Finset.mem_range.mp hi)
    have hm := dayOf_mul_add_slotOf (x * g.minutesPerSlot + i)
    rw [hdayOf, hslotOf] at hm
    dsimp only
    rw [hm, slot, hdayOf, hslotOf]
  rw [filter_values _ (·.1) (fun pair k => liveValues g pair.2 (start / 60) ((stop - 1) / 60)
    (st.live.cell pair k)) hmetrics hk,
    sumAt_flatMap_of_nodup hnodup (a := (s, x / (g.slotsPerDay : Int)))]
  · rw [if_pos rfl, sumAt_liveValues, if_pos rfl, hblock]
    by_cases hfolded : (s, x / (g.slotsPerDay : Int)) ∈ folded
    · rw [if_pos hfolded, if_neg fun h => (hmem.mp h).2 hfolded]
    · rw [if_neg hfolded]
      by_cases hlive : (s, x / (g.slotsPerDay : Int)) ∈ st.live
      · rw [if_pos (hmem.mpr ⟨hlive, hfolded⟩)]
      · rw [if_neg fun h => hlive (hmem.mp h).1]
        refine (Finset.sum_eq_zero fun i hi => ?_).symm
        rw [slot_of_notMem, ite_self]
        rw [(g.minute_of_slot x (Finset.mem_range.mp hi)).1]
        exact hlive
  · intro pair _ hne
    split
    · rename_i hservice
      rw [sumAt_liveValues, if_neg fun hday => hne (Prod.ext hservice hday)]
    · rfl

/-- The two parts together are what the query sees of the minutes of the slot. -/
theorem sumAt_seen (hmetrics : metrics.Nodup) (hk : k ∈ metrics) (hs : s ∈ services) {x : Int}
    (hx : start / secsPerDay ≤ x / g.slotsPerDay ∧
      x / g.slotsPerDay ≤ (stop - 1) / secsPerDay) :
    sumAt (((((st.rolledDays services start stop).flatMap fun pair => metrics.map fun k =>
        ((pair.1, k), st.rollupValues g pair k)) ++ st.fillLive services metrics g start stop
          (st.rolledDays services start stop)).filter fun u => u.1 = (s, k)).flatMap (·.2)) x =
      ∑ i ∈ Finset.range g.minutesPerSlot,
        st.seen (start / 60) ((stop - 1) / 60) s (x * g.minutesPerSlot + i) k := by
  have hmem : (s, x / (g.slotsPerDay : Int)) ∈ st.rolledDays services start stop ↔
      (s, x / (g.slotsPerDay : Int)) ∈ st.daily := by
    rw [rolledDays, List.mem_filter, ← AList.mem_keys]
    exact and_iff_left (decide_eq_true ⟨hs, hx⟩)
  have hseen (i : Nat) (hi : i ∈ Finset.range g.minutesPerSlot) :=
    (g.minute_of_slot x (Finset.mem_range.mp hi)).1
  rw [List.filter_append, List.flatMap_append, sumAt_append, sumAt_folded hmetrics hk hs hx,
    sumAt_live hmetrics hk hs hx]
  by_cases hrow : (s, x / (g.slotsPerDay : Int)) ∈ st.daily
  · rw [if_pos hrow, if_pos (hmem.mpr hrow), add_zero]
    refine Finset.sum_congr rfl fun i hi => ?_
    rw [seen, hseen i hi, if_pos hrow]
  · rw [if_neg hrow, if_neg fun h => hrow (hmem.mp h), zero_add]
    refine Finset.sum_congr rfl fun i hi => ?_
    rw [seen, hseen i hi, if_neg hrow]

/-! ## The answer of a query -/

/-- The sum of what is seen of the minutes of a slot. -/
def seenSlot (st : UsageStore) (q : MetricsQuery) (key : ServiceId × Slots) (j : Nat) : Int :=
  ∑ i ∈ Finset.range (Granularity.choose q.start q.stop).minutesPerSlot,
    st.seen (q.start / 60) ((q.stop - 1) / 60) key.1
      ((q.range.1 + j) * (Granularity.choose q.start q.stop).minutesPerSlot + i) key.2

/-- The series of a service and a metric: each slot has the sum of its minutes. -/
def seriesOf (st : UsageStore) (q : MetricsQuery) (key : ServiceId × Slots) : MetricsSeries where
  service := key.1
  metric := key.2
  total := ∑ j ∈ Finset.range q.range.2, st.seenSlot q key j
  slots := (List.range q.range.2).map fun (j : Nat) => (q.range.1 + j, st.seenSlot q key j)

omit [BlobCodec] in
theorem mem_slotRange (g : Granularity) {j : Nat} (hj : j < (slotRange start stop g).2) :
    start < stop ∧ start / g.secs ≤ (slotRange start stop g).1 + j ∧
      (slotRange start stop g).1 + j ≤ (stop - 1) / g.secs := by
  unfold slotRange at hj ⊢
  split at hj
  · exact absurd hj (Nat.not_lt_zero j)
  · rename_i hlt
    rw [if_neg hlt]
    have hlast : start / g.secs ≤ (stop - 1) / g.secs :=
      Int.ediv_le_ediv (by cases g <;> decide) (by omega)
    simp only [Granularity.asUsize] at hj ⊢
    refine ⟨by omega, by omega, ?_⟩
    generalize start / g.secs = first at hj hlast ⊢
    generalize (stop - 1) / g.secs = last at hj hlast ⊢
    omega

omit [BlobCodec] in
/-- The day of a slot of the window is a day of the window. -/
theorem day_of_slotRange (g : Granularity) {j : Nat} (hj : j < (slotRange start stop g).2) :
    start / secsPerDay ≤ ((slotRange start stop g).1 + j) / g.slotsPerDay ∧
      ((slotRange start stop g).1 + j) / g.slotsPerDay ≤ (stop - 1) / secsPerDay := by
  obtain ⟨-, hfirst, hlast⟩ := mem_slotRange g hj
  generalize (slotRange start stop g).1 + j = x at hfirst hlast ⊢
  cases g <;>
    simp only [Granularity.secs, Granularity.slotsPerDay, secsPerDay, minutesPerDay,
      Nat.cast_ofNat, Nat.cast_one] at hfirst hlast ⊢ <;> omega

omit [BlobCodec] in
theorem slotOffset_eq_some {slots j : Nat} (hj : j < slots) (x : Int) :
    slotOffset firstSlot slots x = some j ↔ x = firstSlot + j := by
  unfold slotOffset
  split
  · rw [Option.some.injEq]
    omega
  · rename_i hnot
    refine iff_of_false (fun h => by cases h) fun h => hnot ?_
    omega

theorem lookup_fillSeries (hrolled : st.Rolled) (hmetrics : metrics.Nodup) (g : Granularity)
    (hslots : (slotRange start stop g).2 ≠ 0) (hne : services ≠ []) (hne' : metrics ≠ []) :
    ∃ values, st.fillSeries services metrics g start stop (slotRange start stop g).1
        (slotRange start stop g).2 = .ok values ∧ ∀ s ∈ services, ∀ k ∈ metrics,
      values.lookup (s, k) = some ((List.range (slotRange start stop g).2).map fun (j : Nat) =>
        ∑ i ∈ Finset.range g.minutesPerSlot, st.seen (start / 60) ((stop - 1) / 60) s
          (((slotRange start stop g).1 + j) * g.minutesPerSlot + i) k) := by
  rw [fillSeries, if_neg (by simp [hne, hne', hslots]), fillFolded_eq hrolled]
  refine ⟨_, rfl, fun s hs k hk => ?_⟩
  rw [lookup_addSlots, Map.lookup_tabulate, if_pos (List.mem_product.mpr ⟨hs, hk⟩), Option.map_some,
    Series.fill_zeroes fun j hj x => slotOffset_eq_some hj x]
  refine congrArg some (List.map_congr_left fun j hj => ?_)
  exact sumAt_seen hmetrics hk hs (day_of_slotRange g (List.mem_range.mp hj))

/-- Every query is answered, each slot with the sum of what is seen of its minutes. -/
theorem queryMetrics_eq (hrolled : st.Rolled) (q : MetricsQuery) (hmetrics : q.metrics.Nodup) :
    st.queryMetrics q = .ok {
      granularity := (Granularity.choose q.start q.stop).secs
      start := q.start
      stop := q.stop
      series := (st.resolveServices q ×ˢ q.metrics).map (st.seriesOf q) } := by
  have hfill (values : Buffers) (hvalues : ∀ s ∈ st.resolveServices q, ∀ k ∈ q.metrics,
      (values.lookup (s, k)).getD [] = (st.seriesOf q (s, k)).slots.map (·.2)) :
      ((st.resolveServices q ×ˢ q.metrics).map fun key =>
        let buffer := (values.lookup key).getD []
        ({ service := key.1, metric := key.2, total := buffer.sum
           slots := buffer.mapIdx fun i value =>
            ((slotRange q.start q.stop (Granularity.choose q.start q.stop)).1 + i, value) } :
          MetricsSeries)) = (st.resolveServices q ×ˢ q.metrics).map (st.seriesOf q) := by
    refine List.map_congr_left fun key hkey => ?_
    obtain ⟨hs, hk⟩ := List.pair_mem_product.mp hkey
    dsimp only
    rw [hvalues key.1 hs key.2 hk, seriesOf, List.map_map]
    refine congrArg₂ (MetricsSeries.mk key.1 key.2) ?_ ?_
    · exact sum_map_range _ _
    · exact mapIdx_range _ _ _
  by_cases hempty : (st.resolveServices q).isEmpty ∨ q.metrics.isEmpty ∨
      (slotRange q.start q.stop (Granularity.choose q.start q.stop)).2 = 0
  · have hnone : st.fillSeries (st.resolveServices q) q.metrics (Granularity.choose q.start q.stop)
        q.start q.stop (slotRange q.start q.stop (Granularity.choose q.start q.stop)).1
        (slotRange q.start q.stop (Granularity.choose q.start q.stop)).2 = .ok ∅ := by
      rw [fillSeries, if_pos hempty]
      rfl
    have hseries := hfill ∅ fun s hs k hk => ?_
    · rw [queryMetrics, hnone, ← hseries]
      rfl
    · obtain h | h | h := hempty
      · rw [List.isEmpty_iff.mp h] at hs
        cases hs
      · rw [List.isEmpty_iff.mp h] at hk
        cases hk
      · rw [seriesOf, h]
        rfl
  · rw [not_or, not_or, List.isEmpty_iff, List.isEmpty_iff] at hempty
    obtain ⟨values, hvalues, hlookup⟩ := lookup_fillSeries hrolled hmetrics
      (Granularity.choose q.start q.stop) hempty.2.2 hempty.1 hempty.2.1
    have hseries := hfill values fun s hs k hk => ?_
    · rw [queryMetrics, hvalues, ← hseries]
      rfl
    · rw [hlookup s hs k hk, seriesOf, List.map_map]
      rfl

/-! ## Folding between two queries -/

theorem Rolled.foldDay (h : st.Rolled) (day : Int) : (st.foldDay day).Rolled := by
  intro pair row hrow
  rcases lookup_daily_of_foldDay hrow with hold | ⟨-, cells, -, rfl⟩
  · exact h pair row hold
  · exact ⟨cells, rfl⟩

/-- Folding a day uncovers the minutes of the day that were clipped. -/
theorem seen_foldDay {first last day m : Int} (hs : s ∈ st.services) (hday : (s, day) ∉ st.daily) :
    (st.foldDay day).seen first last s m k = st.seen first last s m k +
      if dayOf m = day ∧ ¬(first ≤ m ∧ m ≤ last) then st.slot s m k else 0 := by
  have hrow : (s, dayOf m) ∈ (st.foldDay day).daily ↔
      (s, dayOf m) ∈ st.daily ∨ dayOf m = day ∧ (s, dayOf m) ∈ st.live := by
    rw [← AList.lookup_isSome, lookup_daily_foldDay]
    by_cases hm : dayOf m = day
    · rw [if_pos ⟨hm, hs⟩, Option.isSome_or, Option.isSome_map, Bool.or_eq_true,
        AList.lookup_isSome, AList.lookup_isSome, or_comm]
      exact or_congr_right (and_iff_right hm).symm
    · rw [if_neg fun h => hm h.1, AList.lookup_isSome]
      exact (or_iff_left fun h => hm h.1).symm
  rw [seen, seen, slot_foldDay, folded_foldDay hs]
  by_cases hm : dayOf m = day
  · subst hm
    rw [if_neg hday]
    by_cases hlive : (s, dayOf m) ∈ st.live
    · rw [if_pos (hrow.mpr (.inr ⟨rfl, hlive⟩)), if_pos ⟨rfl, hlive⟩]
      by_cases hwindow : first ≤ m ∧ m ≤ last <;> simp [hwindow]
    · rw [if_neg fun h => (hrow.mp h).elim hday fun h => hlive h.2, slot_of_notMem hlive]
      simp
  · simp [hrow, hm]

theorem seriesOf_eq_iff {st' : UsageStore} {q : MetricsQuery} {key : ServiceId × Slots} :
    st'.seriesOf q key = st.seriesOf q key ↔
      ∀ j < q.range.2, st'.seenSlot q key j = st.seenSlot q key j := by
  constructor
  · intro h j hj
    have hslots := List.map_inj_left.mp (congrArg MetricsSeries.slots h) j (List.mem_range.mpr hj)
    exact (Prod.mk.inj hslots).2
  · intro h
    refine congrArg₂ (MetricsSeries.mk key.1 key.2) ?_ ?_
    · exact Finset.sum_congr rfl fun j hj => h j (Finset.mem_range.mp hj)
    · exact List.map_congr_left fun j hj => congrArg _ (h j (List.mem_range.mp hj))

/-- The minutes of a day that are in the slots of a window, and not in the window. -/
def Clipped (q : MetricsQuery) (day m : Int) : Prop :=
  dayOf m = day ∧ ¬(q.start / 60 ≤ m ∧ m ≤ (q.stop - 1) / 60) ∧
    ∃ j < q.range.2,
      q.range.1 + (j : Nat) = m / (Granularity.choose q.start q.stop).minutesPerSlot

end UsageStore

/-! A service that was metered in one minute of the first day. Half an hour into the day, a window by
the hour does not count what it sent at ten minutes; once the day is folded it does. -/

def lone (slots : Slots) (index : Nat) : @UsageStore plainBlobs :=
  @UsageStore.mk plainBlobs (AList.insert 1 ⟨"api", "box", "ada"⟩ ∅)
    (AList.insert (1, 0) (fun k i => if k = slots ∧ i = index then 1 else 0) ∅) ∅

def morning : MetricsQuery where
  services := [1]
  people := []
  metrics := [.bytesOut]
  start := 1800
  stop := 36000

theorem slot_lone (slots : Slots) (index : Nat) (s : ServiceId) (m : Int) (k : Slots) :
    @UsageStore.slot plainBlobs (lone slots index) s m k =
      if (s, dayOf m) = (1, 0) ∧ k = slots ∧ slotOf m = index then 1 else 0 := by
  change LiveRows.cell (AList.insert (1, 0) _ ∅) (s, dayOf m) k (slotOf m) = _
  rw [LiveRows.cell, Map.lookup_insert_ite, ite_and]
  split
  · rfl
  · rw [AList.lookup_empty]
    rfl

theorem slot_lone_nonneg (slots : Slots) (index : Nat) (s : ServiceId) (m : Int) (k : Slots) :
    0 ≤ @UsageStore.slot plainBlobs (lone slots index) s m k := by
  rw [slot_lone]
  split
  · exact Int.one_nonneg
  · exact le_rfl

theorem rolled_lone (slots : Slots) (index : Nat) :
    @UsageStore.Rolled plainBlobs (lone slots index) := fun pair row hrow => by cases hrow

end TunnelWeaver.Server
