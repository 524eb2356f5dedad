import TunnelWeaver.Server.Metering

/-! The persisted layer of metering: the slot arrays of the days that are not finished
(`store/usage_live.rs`), the rollup of the finished ones, and the fold from the one to the other
(`metrics.rs`). A cell is modelled as a function of the slot, of which the first 1440 are the
array; sums are integers without overflow. -/

namespace TunnelWeaver.Server

/-- The six metered quantities. `Metric` of `metrics.rs` has the same six in the same order, and
the two are bridged by their index. -/
inductive Slots
  | bytesIn
  | bytesOut
  | tunnelIn
  | tunnelOut
  | requests
  | openMs
  deriving DecidableEq

def Slots.all : List Slots := [.bytesIn, .bytesOut, .tunnelIn, .tunnelOut, .requests, .openMs]

@[simp] theorem Slots.mem_all (k : Slots) : k ∈ Slots.all := by
  cases k <;> decide

/-- Minutes in one day, and therefore slots in one cell. -/
def minutesPerDay : Nat := 1440

/-- A `u64` cast to `i64`. -/
def toI64 (n : Nat) : Int := Int.bmod n (2 ^ 64)

theorem toI64_of_lt {n : Nat} (h : n < 2 ^ 63) : toI64 n = n := by
  exact Int.bmod_eq_of_le_mul_two (by omega) (by omega)

/-- One metric of one bucket as a slot stores it. -/
def slotValue (bucket : Bucket) : Slots → Int
  | .bytesIn => toI64 bucket.bytesIn
  | .bytesOut => toI64 bucket.bytesOut
  | .tunnelIn => toI64 bucket.tunnelIn
  | .tunnelOut => toI64 bucket.tunnelOut
  | .requests => toI64 bucket.requests
  | .openMs => bucket.openMs

def dayOf (minute : Int) : Int := minute / minutesPerDay

/-- The slot of a minute in its day. -/
def slotOf (minute : Int) : Nat := (minute - dayOf minute * minutesPerDay).toNat

/-- The six arrays of one service-day. -/
abbrev DaySlots := Slots → Nat → Int

inductive UsageError
  | invalidUsage (text : String)
  deriving DecidableEq

/-! ## Minutes and slots -/

theorem slotOf_lt (m : Int) : slotOf m < minutesPerDay := by
  simp only [slotOf, dayOf, minutesPerDay]
  omega

theorem dayOf_mul_add_slotOf (m : Int) : dayOf m * minutesPerDay + slotOf m = m := by
  simp only [slotOf, dayOf, minutesPerDay]
  omega

theorem minute_ext {m m' : Int} (hday : dayOf m = dayOf m') (hslot : slotOf m = slotOf m') :
    m = m' := by
  rw [← dayOf_mul_add_slotOf m, hday, hslot, dayOf_mul_add_slotOf]

theorem slotOf_of_dayOf {m m' : Int} {j : Nat} (h : m = m' + j) (hday : dayOf m = dayOf m') :
    slotOf m = slotOf m' + j := by
  simp only [slotOf, dayOf, minutesPerDay] at *
  omega

theorem dayOf_mul_add (d : Int) {i : Nat} (h : i < minutesPerDay) :
    dayOf (d * minutesPerDay + i) = d := by
  simp only [dayOf, minutesPerDay] at *
  omega

theorem slotOf_mul_add (d : Int) {i : Nat} (h : i < minutesPerDay) :
    slotOf (d * minutesPerDay + i) = i := by
  rw [slotOf, dayOf_mul_add d h]
  omega

/-! ## Slot writes -/

/-- One in-place write of consecutive slots of one metric's day array. -/
structure SlotWrite where
  service : ServiceId
  day : Int
  slots : Slots
  firstSlot : Nat
  values : List Int
  deriving DecidableEq

/-- Rejects a range that would run off the end of the day's array, and an impossible open time. -/
def SlotWrite.validate (write : SlotWrite) : Except UsageError Unit :=
  let stop := write.firstSlot + write.values.length
  if write.values.isEmpty ∨ stop > minutesPerDay then
    .error (.invalidUsage
      s!"slot write covers {write.firstSlot}..{stop} of a {minutesPerDay}-slot day")
  else if write.slots = .openMs then
    match write.values.find? fun v => !(decide (0 ≤ v) && decide (v ≤ 60000)) with
    | some bad => .error (.invalidUsage s!"open_ms {bad} is outside 0..=60000")
    | none => .ok ()
  else .ok ()

/-- The runs of consecutive minutes of one day in an increasing list of minutes. -/
def minuteRuns (minutes : List Int) : List (List Int) :=
  minutes.splitBy fun a b => b == a + 1 && dayOf b == dayOf a

/-- The writes of one run: one for each metric. -/
def runWrites (drained : Map (ServiceId × Int) Bucket) (service : ServiceId) (run : List Int) :
    List SlotWrite :=
  Slots.all.map fun slots =>
    { service
      day := dayOf (run.headD 0)
      slots
      firstSlot := slotOf (run.headD 0)
      values := run.map fun minute =>
        slotValue ((drained.lookup (service, minute)).getD {}) slots }

/-- The minutes of a service among the drained buckets, in order. -/
def drainedMinutes (drained : Map (ServiceId × Int) Bucket) (service : ServiceId) : List Int :=
  (((drained.keys.filter fun key => key.1 = service).map (·.2)).insertionSort (· ≤ ·)).dedup

/-- Turns drained buckets into absolute slot writes, one for each service, metric and run. -/
def slotWrites (drained : Map (ServiceId × Int) Bucket) : List SlotWrite :=
  let services := ((drained.keys.map (·.1)).insertionSort (· ≤ ·)).dedup
  services.flatMap fun service =>
    (minuteRuns (drainedMinutes drained service)).flatMap (runWrites drained service)

/-! ## Runs of minutes -/

theorem run_getElem? {m₀ m : Int} {run : List Int} {j : Nat}
    (h : (m₀ :: run).IsChain fun a b => (b == a + 1 && dayOf b == dayOf a) = true)
    (hj : (m₀ :: run)[j]? = some m) : m = m₀ + j ∧ dayOf m = dayOf m₀ := by
  induction run generalizing m₀ j with
  | nil =>
    cases j with
    | zero =>
      cases hj
      simp
    | succ j => simp at hj
  | cons m₁ run ih =>
    obtain ⟨h₁, h⟩ := List.isChain_cons_cons.mp h
    rw [Bool.and_eq_true, beq_iff_eq, beq_iff_eq] at h₁
    cases j with
    | zero =>
      cases hj
      simp
    | succ j =>
      obtain ⟨hm, hday⟩ := ih h hj
      refine ⟨?_, hday.trans h₁.2⟩
      rw [hm, h₁.1]
      omega

theorem mem_minuteRuns {minutes run : List Int} (h : run ∈ minuteRuns minutes) :
    ∃ m₀ rest, run = m₀ :: rest ∧ (∀ m ∈ run, m ∈ minutes) ∧
      ∀ {j m}, run[j]? = some m →
        m = m₀ + (j : Nat) ∧ dayOf m = dayOf m₀ ∧ slotOf m = slotOf m₀ + j := by
  cases run with
  | nil => exact absurd h (List.nil_notMem_splitBy _ _)
  | cons m₀ rest =>
    refine ⟨m₀, rest, rfl, fun m hm => ?_, fun hj => ?_⟩
    · rw [← List.flatten_splitBy (fun a b => b == a + 1 && dayOf b == dayOf a) minutes]
      exact List.mem_flatten_of_mem h hm
    · obtain ⟨hm, hday⟩ := run_getElem? (List.isChain_of_mem_splitBy h) hj
      exact ⟨hm, hday, slotOf_of_dayOf hm hday⟩

theorem exists_mem_minuteRuns {minutes : List Int} {m : Int} (h : m ∈ minutes) :
    ∃ run ∈ minuteRuns minutes, m ∈ run := by
  rw [← List.flatten_splitBy (fun a b => b == a + 1 && dayOf b == dayOf a) minutes] at h
  exact List.mem_flatten.mp h

theorem mem_drainedMinutes {drained : Map (ServiceId × Int) Bucket} {service : ServiceId}
    {m : Int} : m ∈ drainedMinutes drained service ↔ (service, m) ∈ drained := by
  simp [drainedMinutes, AList.mem_keys]

/-! ## Live rows -/

/-- The `usage_live` table. -/
abbrev LiveRows := Map (ServiceId × Int) DaySlots

namespace LiveRows

/-- The arrays of a service-day; a missing row reads as zeroes. -/
def cell (live : LiveRows) (pair : ServiceId × Int) : DaySlots :=
  (live.lookup pair).getD fun _ _ => 0

/-- `INSERT OR IGNORE` of rows of zeroes. -/
def ensureRows (live : LiveRows) (pairs : List (ServiceId × Int)) : LiveRows :=
  pairs.foldl (fun live pair => if pair ∈ live then live else live.insert pair fun _ _ => 0) live

/-- The arrays with the slots of a write replaced. -/
def writeCell (write : SlotWrite) (row : DaySlots) : DaySlots := fun slots i =>
  if slots = write.slots ∧ write.firstSlot ≤ i then
    write.values[i - write.firstSlot]?.getD (row slots i)
  else row slots i

/-- The in-place write into an existing row. -/
def writeSlots (live : LiveRows) (write : SlotWrite) : LiveRows :=
  match live.lookup (write.service, write.day) with
  | some row => live.insert (write.service, write.day) (writeCell write row)
  | none => live

variable {live : LiveRows} {pair : ServiceId × Int} {k : Slots} {i : Nat}

theorem mem_ensureRows {pairs : List (ServiceId × Int)} :
    pair ∈ ensureRows live pairs ↔ pair ∈ live ∨ pair ∈ pairs := by
  induction pairs generalizing live with
  | nil => simp [ensureRows]
  | cons p pairs ih =>
    rw [ensureRows, List.foldl_cons]
    refine ih.trans ?_
    split
    · rename_i hp
      constructor
      · rintro (h | h)
        · exact .inl h
        · exact .inr (.tail _ h)
      · rintro (h | h)
        · exact .inl h
        · rcases List.mem_cons.mp h with rfl | h
          · exact .inl hp
          · exact .inr h
    · rw [AList.mem_insert, List.mem_cons]
      tauto

theorem cell_ensureRows {pairs : List (ServiceId × Int)} :
    cell (ensureRows live pairs) pair = cell live pair := by
  induction pairs generalizing live with
  | nil => rfl
  | cons p pairs ih =>
    rw [ensureRows, List.foldl_cons]
    refine ih.trans ?_
    split
    · rfl
    · rename_i hp
      rw [cell, Map.lookup_insert_ite]
      split
      · rename_i h
        subst h
        rw [cell, AList.lookup_eq_none.mpr hp]
        rfl
      · rfl

theorem mem_writeSlots {write : SlotWrite} : pair ∈ writeSlots live write ↔ pair ∈ live := by
  unfold writeSlots
  split
  · rename_i row h
    rw [AList.mem_insert]
    constructor
    · rintro (rfl | h)
      · exact AList.lookup_isSome.mp (by simp [h])
      · exact h
    · exact .inr
  · exact .rfl

theorem mem_foldl_writeSlots {writes : List SlotWrite} :
    pair ∈ writes.foldl writeSlots live ↔ pair ∈ live := by
  induction writes generalizing live with
  | nil => exact .rfl
  | cons write writes ih => exact ih.trans mem_writeSlots

end LiveRows

/-- What a write puts into a slot, if the slot is in its range. -/
def SlotWrite.at? (write : SlotWrite) (pair : ServiceId × Int) (k : Slots) (i : Nat) : Option Int :=
  if pair = (write.service, write.day) ∧ k = write.slots ∧ write.firstSlot ≤ i then
    write.values[i - write.firstSlot]?
  else none

namespace LiveRows
variable {live : LiveRows} {pair : ServiceId × Int} {k : Slots} {i : Nat}

theorem cell_writeSlots {write : SlotWrite} (h : (write.service, write.day) ∈ live) :
    cell (writeSlots live write) pair k i = (write.at? pair k i).getD (cell live pair k i) := by
  obtain ⟨row, hrow⟩ := Option.isSome_iff_exists.mp (AList.lookup_isSome.mpr h)
  have hw : writeSlots live write =
      live.insert (write.service, write.day) (writeCell write row) := by
    simp only [writeSlots, hrow]
  rw [hw, cell, Map.lookup_insert_ite, SlotWrite.at?]
  by_cases hp : pair = (write.service, write.day)
  · subst hp
    simp only [if_true, Option.getD_some, writeCell, true_and, cell, hrow]
    split <;> rfl
  · simp [hp, cell]

/-- Writes that agree on a slot leave their value there, if it was there or one of them covers the
slot. -/
theorem cell_foldl_writeSlots {writes : List SlotWrite} {v : Int}
    (hrow : ∀ write ∈ writes, (write.service, write.day) ∈ live)
    (hagree : ∀ write ∈ writes, ∀ w, write.at? pair k i = some w → w = v)
    (h : cell live pair k i = v ∨ ∃ write ∈ writes, write.at? pair k i ≠ none) :
    cell (writes.foldl writeSlots live) pair k i = v := by
  induction writes generalizing live with
  | nil =>
    rcases h with h | ⟨_, h, _⟩
    · exact h
    · cases h
  | cons write writes ih =>
    refine ih (fun w hw => mem_writeSlots.mpr (hrow w (.tail _ hw)))
      (fun w hw => hagree w (.tail _ hw)) ?_
    rw [cell_writeSlots (hrow write (.head _))]
    cases hat : write.at? pair k i with
    | some w => exact .inl (hagree write (.head _) w hat)
    | none =>
      rcases h with h | ⟨w, hw, hne⟩
      · exact .inl h
      · rcases List.mem_cons.mp hw with rfl | hw
        · exact absurd hat hne
        · exact .inr ⟨w, hw, hne⟩

end LiveRows

/-! ## What a flush writes -/

section
variable {drained : Map (ServiceId × Int) Bucket} {write : SlotWrite}

theorem mem_slotWrites : write ∈ slotWrites drained ↔
    ∃ service, ∃ run ∈ minuteRuns (drainedMinutes drained service), ∃ k,
      write = {
        service
        day := dayOf (run.headD 0)
        slots := k
        firstSlot := slotOf (run.headD 0)
        values := run.map fun m => slotValue ((drained.lookup (service, m)).getD {}) k } := by
  simp only [slotWrites, List.mem_flatMap, runWrites, List.mem_map]
  constructor
  · rintro ⟨service, -, run, hrun, k, -, rfl⟩
    exact ⟨service, run, hrun, k, rfl⟩
  · rintro ⟨service, run, hrun, k, rfl⟩
    refine ⟨service, ?_, run, hrun, k, k.mem_all, rfl⟩
    obtain ⟨m, rest, rfl, hmem, -⟩ := mem_minuteRuns hrun
    have hkey : (service, m) ∈ drained := mem_drainedMinutes.mp (hmem m (.head _))
    rw [List.mem_dedup, List.mem_insertionSort, List.mem_map]
    exact ⟨(service, m), AList.mem_keys.mpr hkey, rfl⟩

/-- A write puts into a slot the value of a drained bucket of the slot's minute. -/
theorem lookup_of_at? {s : ServiceId} {m v : Int} {k : Slots} (h : write ∈ slotWrites drained)
    (hat : write.at? (s, dayOf m) k (slotOf m) = some v) :
    ∃ b, drained.lookup (s, m) = some b ∧ v = slotValue b k := by
  obtain ⟨service, run, hrun, k', rfl⟩ := mem_slotWrites.mp h
  obtain ⟨m₀, rest, rfl, hmem, hget⟩ := mem_minuteRuns hrun
  simp only [SlotWrite.at?, Prod.mk.injEq, List.headD_cons] at hat
  split at hat
  · rename_i hc
    obtain ⟨⟨rfl, hday⟩, rfl, hle⟩ := hc
    rw [List.getElem?_map, Option.map_eq_some_iff] at hat
    obtain ⟨m', hm', rfl⟩ := hat
    obtain ⟨-, hday', hslot'⟩ := hget hm'
    obtain rfl : m' = m := minute_ext (hday'.trans hday.symm) (by omega)
    have hkey := mem_drainedMinutes.mp (hmem m' (List.mem_of_getElem? hm'))
    obtain ⟨b, hb⟩ := Option.isSome_iff_exists.mp (AList.lookup_isSome.mpr hkey)
    exact ⟨b, hb, by rw [hb]; rfl⟩
  · cases hat

/-- Every drained bucket is written, in all six metrics. -/
theorem exists_at? {s : ServiceId} {m : Int} {b : Bucket} (k : Slots)
    (h : drained.lookup (s, m) = some b) :
    ∃ write ∈ slotWrites drained, write.at? (s, dayOf m) k (slotOf m) = some (slotValue b k) := by
  have hkey : (s, m) ∈ drained := AList.lookup_isSome.mp (by simp [h])
  obtain ⟨run, hrun, hm⟩ := exists_mem_minuteRuns (mem_drainedMinutes.mpr hkey)
  refine ⟨_, mem_slotWrites.mpr ⟨s, run, hrun, k, rfl⟩, ?_⟩
  obtain ⟨m₀, rest, rfl, -, hget⟩ := mem_minuteRuns hrun
  obtain ⟨j, hj⟩ := List.mem_iff_getElem?.mp hm
  obtain ⟨-, hday, hslot⟩ := hget hj
  simp only [SlotWrite.at?, List.headD_cons, hday, hslot]
  rw [if_pos (by simp), Nat.add_sub_cancel_left, List.getElem?_map, hj, Option.map_some, h]
  rfl

theorem validate_of_mem (hopen : ∀ key b, drained.lookup key = some b →
      0 ≤ b.openMs ∧ b.openMs ≤ 60000)
    (h : write ∈ slotWrites drained) : write.validate = .ok () := by
  obtain ⟨service, run, hrun, k, rfl⟩ := mem_slotWrites.mp h
  obtain ⟨m₀, rest, rfl, hmem, hget⟩ := mem_minuteRuns hrun
  have hfit : slotOf m₀ + (m₀ :: rest).length ≤ minutesPerDay := by
    have hlast : (m₀ :: rest)[rest.length]? = some ((m₀ :: rest).get ⟨rest.length, by simp⟩) := by
      simp
    have hslot := (hget hlast).2.2
    have := slotOf_lt ((m₀ :: rest).get ⟨rest.length, by simp⟩)
    rw [hslot] at this
    simp only [List.length_cons]
    omega
  have hrange : ∀ m ∈ m₀ :: rest,
      0 ≤ slotValue ((drained.lookup (service, m)).getD {}) .openMs ∧
        slotValue ((drained.lookup (service, m)).getD {}) .openMs ≤ 60000 := by
    intro m hm
    have hkey := mem_drainedMinutes.mp (hmem m hm)
    obtain ⟨b, hb⟩ := Option.isSome_iff_exists.mp (AList.lookup_isSome.mpr hkey)
    rw [hb]
    exact hopen _ b hb
  unfold SlotWrite.validate
  simp only [List.headD_cons, List.length_map, List.isEmpty_map]
  rw [if_neg (by simp; omega)]
  split
  · rename_i hk
    subst hk
    have hfind : ((m₀ :: rest).map fun m =>
        slotValue ((drained.lookup (service, m)).getD {}) .openMs).find?
          (fun v => !(decide (0 ≤ v) && decide (v ≤ 60000))) = none := by
      refine List.find?_eq_none.mpr fun v hv => ?_
      obtain ⟨m, hm, rfl⟩ := List.mem_map.mp hv
      have := hrange m hm
      simp [this]
    rw [hfind]
  · rfl

theorem forM_validate {writes : List SlotWrite} (h : ∀ write ∈ writes, write.validate = .ok ()) :
    writes.forM SlotWrite.validate = .ok () := by
  induction writes with
  | nil => rfl
  | cons write writes ih =>
    unfold List.forM
    rw [h write (.head _)]
    exact ih fun w hw => h w (.tail _ hw)

end

/-- The blob format of the rollup: a zstd frame over little-endian `i64`s. Decompression inverts
compression. -/
class BlobCodec where
  Blob : Type
  encodeBlob : List Int → Blob
  decodeBlob : Blob → Except UsageError (List Int)
  decode_encode : ∀ values, decodeBlob (encodeBlob values) = .ok values

export BlobCodec (encodeBlob decodeBlob)

variable [BlobCodec]

/-- A `usage_daily` row: the day's totals with the hourly and the per-minute arrays. -/
structure UsageDaily where
  total : Slots → Int
  hours : Slots → BlobCodec.Blob
  minutes : Slots → BlobCodec.Blob

structure ServiceIdentity where
  service : String
  machine : String
  person : String
  deriving DecidableEq

/-- The tables metering reads and writes: the `service` rows with their names, and the two usage
tables by service and day. -/
structure UsageStore where
  services : Map ServiceId ServiceIdentity := ∅
  live : LiveRows := ∅
  daily : Map (ServiceId × Int) UsageDaily := ∅

namespace UsageStore

/-- The pairs whose service still exists; the others are dropped. -/
def writablePairs (st : UsageStore) (pairs : List (ServiceId × Int)) : List (ServiceId × Int) :=
  pairs.dedup.filter fun pair => pair.1 ∈ st.services

/-- The transaction of a batch: every row is ensured first. A batch with nothing to write changes
nothing. -/
def writeBatch (st : UsageStore) (writes : List SlotWrite) : UsageStore :=
  let pairs := st.writablePairs (writes.map fun write => (write.service, write.day))
  let kept := writes.filter fun write => (write.service, write.day) ∈ pairs
  { st with live := kept.foldl LiveRows.writeSlots (LiveRows.ensureRows st.live pairs) }

/-- Write a batch of slots, all valid, in one transaction. -/
def writeDaySlots (st : UsageStore) (writes : List SlotWrite) : Except UsageError UsageStore :=
  (writes.forM SlotWrite.validate).map fun _ => st.writeBatch writes

/-! ## Folding -/

def minutesPerHour : Nat := 60

def hoursPerDay : Nat := 24

/-- The sums of the hours of an array. -/
def hourSums (values : Nat → Int) : List Int :=
  (List.range hoursPerDay).map fun hour =>
    ((List.range minutesPerHour).map fun i => values (hour * minutesPerHour + i)).sum

/-- The rollup row of one service-day. -/
def writeDay (row : DaySlots) : UsageDaily where
  total slots := (hourSums (row slots)).sum
  hours slots := encodeBlob (hourSums (row slots))
  minutes slots := encodeBlob ((List.range minutesPerDay).map (row slots))

/-- Folds one day's live rows into a rollup row for each service that exists, then deletes them. -/
def foldDay (st : UsageStore) (day : Int) : UsageStore :=
  let rows := Map.filterMap (fun pair row =>
    if pair.2 = day ∧ pair.1 ∈ st.services then some (writeDay row) else none) st.live
  { st with
    daily := rows ∪ st.daily
    live := Map.filterMap (fun pair row => if pair.2 = day then none else some row) st.live }

/-- Every day before `day` that still has live rows. -/
def daysWithLiveRows (st : UsageStore) (day : Int) : List Int :=
  (((st.live.keys.map (·.2)).filter (· < day)).insertionSort (· ≤ ·)).dedup

/-- Deletes the rollup rows of the days before `cutoff`. -/
def sweep (st : UsageStore) (cutoff : Int) : UsageStore :=
  { st with
    daily := Map.filterMap (fun pair row => if pair.2 < cutoff then none else some row) st.daily }

/-- Deletes a service; its usage rows go with it. -/
def deleteService (st : UsageStore) (service : ServiceId) : UsageStore where
  services := st.services.erase service
  live := Map.filterMap (fun pair row => if pair.1 = service then none else some row) st.live
  daily := Map.filterMap (fun pair row => if pair.1 = service then none else some row) st.daily

/-! ## The spec of a flush -/

/-- The persisted slot of a minute. -/
def slot (st : UsageStore) (service : ServiceId) (minute : Int) (k : Slots) : Int :=
  LiveRows.cell st.live (service, dayOf minute) k (slotOf minute)

section
variable {st : UsageStore} {drained : Map (ServiceId × Int) Bucket}

/-- Storage never refuses what a flush writes: the runs fit into their days, and open times are
those of a minute. -/
theorem writeDaySlots_slotWrites (hopen : ∀ key b, drained.lookup key = some b →
      0 ≤ b.openMs ∧ b.openMs ≤ 60000) :
    st.writeDaySlots (slotWrites drained) = .ok (st.writeBatch (slotWrites drained)) := by
  rw [writeDaySlots, forM_validate fun w hw => validate_of_mem hopen hw]
  rfl

theorem writeDaySlots_eq_ok {writes : List SlotWrite} {st' : UsageStore}
    (h : st.writeDaySlots writes = .ok st') : st' = st.writeBatch writes := by
  unfold writeDaySlots at h
  cases hv : writes.forM SlotWrite.validate with
  | error e =>
    rw [hv] at h
    cases h
  | ok =>
    rw [hv] at h
    cases h
    rfl

theorem mem_kept {write : SlotWrite} :
    write ∈ ((slotWrites drained).filter fun write => (write.service, write.day) ∈
        st.writablePairs ((slotWrites drained).map fun write => (write.service, write.day))) ↔
      write ∈ slotWrites drained ∧ write.service ∈ st.services := by
  simp only [List.mem_filter, decide_eq_true_eq, writablePairs, List.mem_dedup, List.mem_map]
  constructor
  · rintro ⟨h, -, hs⟩
    exact ⟨h, hs⟩
  · rintro ⟨h, hs⟩
    exact ⟨h, ⟨write, h, rfl⟩, hs⟩

/-- A flush replaces the slots of the drained minutes of the services that exist, and no others. -/
theorem slot_writeBatch (s : ServiceId) (m : Int) (k : Slots) :
    (st.writeBatch (slotWrites drained)).slot s m k =
      if s ∈ st.services then ((drained.lookup (s, m)).map (slotValue · k)).getD (st.slot s m k)
      else st.slot s m k := by
  simp only [slot, writeBatch]
  refine LiveRows.cell_foldl_writeSlots (fun write hw => ?_) (fun write hw v hat => ?_) ?_
  · exact LiveRows.mem_ensureRows.mpr (.inr (of_decide_eq_true (List.mem_filter.mp hw).2))
  · obtain ⟨hw, hs⟩ := mem_kept.mp hw
    obtain ⟨b, hb, rfl⟩ := lookup_of_at? hw hat
    have hpair : s = write.service := by
      simp only [SlotWrite.at?, Prod.mk.injEq] at hat
      split at hat
      · rename_i hc
        exact hc.1.1
      · cases hat
    rw [hpair] at hb ⊢
    rw [if_pos hs, hb]
    rfl
  · rw [LiveRows.cell_ensureRows]
    by_cases hs : s ∈ st.services
    · rw [if_pos hs]
      cases hb : drained.lookup (s, m) with
      | none => exact .inl rfl
      | some b =>
        obtain ⟨write, hw, hat⟩ := exists_at? k hb
        have hpair : s = write.service := by
          simp only [SlotWrite.at?, Prod.mk.injEq] at hat
          split at hat
          · rename_i hc
            exact hc.1.1
          · cases hat
        exact .inr ⟨write, mem_kept.mpr ⟨hw, hpair ▸ hs⟩, by simp [hat]⟩
    · exact .inl (if_neg hs).symm

/-- The rows a flush creates are those of the days of the drained minutes. -/
theorem mem_live_writeBatch (pair : ServiceId × Int) :
    pair ∈ (st.writeBatch (slotWrites drained)).live ↔
      pair ∈ st.live ∨
        pair.1 ∈ st.services ∧ ∃ m, (pair.1, m) ∈ drained ∧ dayOf m = pair.2 := by
  simp only [writeBatch, LiveRows.mem_foldl_writeSlots, LiveRows.mem_ensureRows]
  refine or_congr_right ?_
  simp only [writablePairs, List.mem_filter, List.mem_dedup, List.mem_map, decide_eq_true_eq]
  constructor
  · rintro ⟨⟨write, hw, rfl⟩, hs⟩
    obtain ⟨service, run, hrun, k, rfl⟩ := mem_slotWrites.mp hw
    obtain ⟨m, rest, rfl, hmem, -⟩ := mem_minuteRuns hrun
    exact ⟨hs, m, mem_drainedMinutes.mp (hmem m (.head _)), rfl⟩
  · rintro ⟨hs, m, hm, hday⟩
    obtain ⟨run, hrun, hmem⟩ := exists_mem_minuteRuns (mem_drainedMinutes.mpr hm)
    refine ⟨⟨_, mem_slotWrites.mpr ⟨_, run, hrun, .bytesIn, rfl⟩, ?_⟩, hs⟩
    obtain ⟨m₀, rest, rfl, -, hget⟩ := mem_minuteRuns hrun
    obtain ⟨j, hj⟩ := List.mem_iff_getElem?.mp hmem
    rw [List.headD_cons, ← (hget hj).2.1, hday]

end

end UsageStore

/-! ## Reading rollups -/

/-- The per-minute array of a rollup row. -/
def UsageDaily.array (row : UsageDaily) (k : Slots) : List Int :=
  match decodeBlob (row.minutes k) with
  | .ok values => values
  | .error _ => []

def UsageDaily.minute (row : UsageDaily) (k : Slots) (i : Nat) : Int := (row.array k)[i]?.getD 0

namespace UsageStore

@[simp] theorem array_writeDay (row : DaySlots) (k : Slots) :
    (writeDay row).array k = (List.range minutesPerDay).map (row k) := by
  simp only [UsageDaily.array, writeDay, BlobCodec.decode_encode]

theorem minute_writeDay (row : DaySlots) (k : Slots) {i : Nat} (h : i < minutesPerDay) :
    (writeDay row).minute k i = row k i := by
  simp [UsageDaily.minute, h]

/-- The folded value of a minute. -/
def folded (st : UsageStore) (s : ServiceId) (m : Int) (k : Slots) : Int :=
  match st.daily.lookup (s, dayOf m) with
  | some row => row.minute k (slotOf m)
  | none => 0

section
variable {st : UsageStore} {s : ServiceId} {m day : Int} {k : Slots} {p : ServiceId × Int}

theorem lookup_live_foldDay :
    (st.foldDay day).live.lookup p = if p.2 = day then none else st.live.lookup p := by
  rw [foldDay, Map.lookup_filterMap]
  split
  · simp
  · simp

theorem lookup_daily_foldDay :
    (st.foldDay day).daily.lookup p =
      if p.2 = day ∧ p.1 ∈ st.services then
        ((st.live.lookup p).map writeDay).or (st.daily.lookup p)
      else st.daily.lookup p := by
  simp only [foldDay]
  rw [Map.lookup_union, Map.lookup_filterMap]
  split
  · cases st.live.lookup p <;> rfl
  · simp

theorem slot_foldDay :
    (st.foldDay day).slot s m k = if dayOf m = day then 0 else st.slot s m k := by
  rw [slot, LiveRows.cell, lookup_live_foldDay]
  split <;> rfl

/-- A fold moves the slots of the services that exist into their rollup rows. -/
theorem folded_foldDay (hs : s ∈ st.services) :
    (st.foldDay day).folded s m k =
      if dayOf m = day ∧ (s, day) ∈ st.live then st.slot s m k else st.folded s m k := by
  rw [folded, lookup_daily_foldDay]
  by_cases hday : dayOf m = day
  · subst hday
    rw [if_pos ⟨rfl, hs⟩]
    by_cases hrow : (s, dayOf m) ∈ st.live
    · obtain ⟨row, hlook⟩ := Option.isSome_iff_exists.mp (AList.lookup_isSome.mpr hrow)
      rw [if_pos ⟨rfl, hrow⟩, hlook, slot, LiveRows.cell, hlook]
      exact minute_writeDay row k (slotOf_lt m)
    · rw [if_neg (by simp [hrow]), AList.lookup_eq_none.mpr hrow]
      rfl
  · rw [if_neg (by simp [hday]), if_neg (by simp [hday]), folded]

theorem lookup_daily_sweep {cutoff : Int} (h : p ∈ st.daily → cutoff ≤ p.2) :
    (st.sweep cutoff).daily.lookup p = st.daily.lookup p := by
  rw [sweep, Map.lookup_filterMap]
  cases hrow : st.daily.lookup p with
  | none => rfl
  | some row =>
    have := h (AList.lookup_isSome.mp (by simp [hrow]))
    have hlt : ¬p.2 < cutoff := by omega
    simp [hlt]

theorem lookup_daily_of_foldDay {row : UsageDaily}
    (h : (st.foldDay day).daily.lookup p = some row) :
    st.daily.lookup p = some row ∨
      p.2 = day ∧ ∃ cells, st.live.lookup p = some cells ∧ row = writeDay cells := by
  rw [lookup_daily_foldDay] at h
  split at h
  · rename_i hp
    cases hrow : st.live.lookup p with
    | none =>
      rw [hrow] at h
      exact .inl h
    | some cells =>
      rw [hrow] at h
      cases h
      exact .inr ⟨hp.1, cells, rfl, rfl⟩
  · exact .inl h

theorem mem_live_foldDay : p ∈ (st.foldDay day).live ↔ p ∈ st.live ∧ p.2 ≠ day := by
  rw [← AList.lookup_isSome, lookup_live_foldDay, ← AList.lookup_isSome]
  split <;> simp_all

omit [BlobCodec] in
/-- A filter keeps rows as they are. -/
theorem lookup_of_filter {R : Type} {rows : Map (ServiceId × Int) R}
    {c : ServiceId × Int → Prop} [DecidablePred c] {row : R}
    (h : (Map.filterMap (fun q row => if c q then none else some row) rows).lookup p = some row) :
    rows.lookup p = some row := by
  rw [Map.lookup_filterMap] at h
  obtain ⟨row', hrow', h⟩ := Option.bind_eq_some_iff.mp h
  split at h
  · cases h
  · cases h
    exact hrow'

theorem mem_live_deleteService {service : ServiceId} (h : p ∈ (st.deleteService service).live) :
    p ∈ st.live := by
  obtain ⟨row, hrow⟩ := Option.isSome_iff_exists.mp (AList.lookup_isSome.mpr h)
  exact AList.lookup_isSome.mp (by rw [lookup_of_filter hrow]; rfl)

theorem folded_sweep {cutoff : Int} (h : (s, dayOf m) ∈ st.daily → cutoff ≤ dayOf m) :
    (st.sweep cutoff).folded s m k = st.folded s m k := by
  rw [folded, lookup_daily_sweep (p := (s, dayOf m)) h, folded]

theorem lookup_live_deleteService {service : ServiceId} (h : p.1 ≠ service) :
    (st.deleteService service).live.lookup p = st.live.lookup p := by
  simp [deleteService, Map.lookup_filterMap, h]

theorem lookup_daily_deleteService {service : ServiceId} (h : p.1 ≠ service) :
    (st.deleteService service).daily.lookup p = st.daily.lookup p := by
  simp [deleteService, Map.lookup_filterMap, h]

end

end UsageStore

end TunnelWeaver.Server
