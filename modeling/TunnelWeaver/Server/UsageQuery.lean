import TunnelWeaver.Server.Folding
import TunnelWeaver.Server.Totals

/-! The usage query of the control verb (`metering/mod.rs`, `store/usage.rs`): the live rows of the
store, and over them the buckets that are not flushed. A folded day contributes nothing. -/

namespace TunnelWeaver.Server

open Automaton (run Meets run_invariant_of_meets)

/-- Aggregated usage of one service over a queried window. -/
structure UsageTotal where
  serviceId : ServiceId
  identity : ServiceIdentity
  counts : Slots → Int
  coveredMinutes : Int

namespace UsageTotal

def fromIdentity (e : ServiceId × ServiceIdentity) : UsageTotal where
  serviceId := e.1
  identity := e.2
  counts _ := 0
  coveredMinutes := 0

/-- Adds a minute of a row; a minute with a slot that is not zero is covered. -/
def addMinute (row : DaySlots) (total : UsageTotal) (index : Nat) : UsageTotal :=
  { total with
    counts := fun k => total.counts k + row k index
    coveredMinutes := total.coveredMinutes + if Slots.all.any fun k => row k index ≠ 0 then 1 else 0 }

/-- The order of a result: person, machine, service. -/
def precedes (a b : UsageTotal) : Prop :=
  toLex (a.identity.person, toLex (a.identity.machine, a.identity.service)) ≤
    toLex (b.identity.person, toLex (b.identity.machine, b.identity.service))

instance : DecidableRel precedes := fun _ _ => inferInstanceAs (Decidable (_ ≤ _))

end UsageTotal

/-- The clamped offset of a minute in the day that starts at `base`. -/
def clampSlot (minute base : Int) : Nat := (max 0 (min (minute - base) minutesPerDay)).toNat

namespace UsageStore

variable [BlobCodec] (st : UsageStore)

/-- The services with the names of the filters, in the lower case they are stored in. -/
def usageIdentities (person service : Option String) : List (ServiceId × ServiceIdentity) :=
  (st.services.entries.map fun e => (e.1, e.2)).filter fun e =>
    (∀ name ∈ person, e.2.person = name.toLower) ∧ ∀ name ∈ service, e.2.service = name.toLower

/-- Adds the minutes of a day that are in the window. -/
def addDay (sinceMin untilMin : Int) (total : UsageTotal) (pair : ServiceId × Int) : UsageTotal :=
  let base := pair.2 * minutesPerDay
  let first := clampSlot sinceMin base
  let last := clampSlot untilMin base
  (List.range' first (last - first)).foldl (UsageTotal.addMinute (st.live.cell pair)) total

/-- `Store::query_usage`. -/
def queryUsage (person service : Option String) (sinceMin untilMin : Int) : List UsageTotal :=
  if untilMin ≤ sinceMin then []
  else
    let identities := st.usageIdentities person service
    let firstDay := sinceMin / minutesPerDay
    let lastDay := (untilMin - 1) / minutesPerDay
    let days := (st.liveDays (identities.map (·.1))).filter fun pair =>
      firstDay ≤ pair.2 ∧ pair.2 ≤ lastDay
    let totals := identities.map fun e =>
      (days.filter (·.1 = e.1)).foldl (st.addDay sinceMin untilMin) (UsageTotal.fromIdentity e)
    (totals.filter fun total => 0 < total.coveredMinutes).insertionSort UsageTotal.precedes

/-- `Store::service_identities`. -/
def serviceIdentities (ids : List ServiceId) : List (ServiceId × ServiceIdentity) :=
  (st.services.entries.map fun e => (e.1, e.2)).filter (·.1 ∈ ids)

end UsageStore

/-! ## The buckets in memory -/

/-- What the buckets of a service add up to. -/
structure LiveAgg where
  counts : Slots → Int := fun _ => 0
  coveredMinutes : Int := 0

/-- Adds a bucket of the window. -/
def LiveAgg.addBucket (sinceMin untilMin : Int) (out : Map ServiceId LiveAgg)
    (e : (ServiceId × Int) × Bucket) : Map ServiceId LiveAgg :=
  if e.1.2 < sinceMin ∨ untilMin ≤ e.1.2 then out
  else
    let agg := (out.lookup e.1.1).getD {}
    out.insert e.1.1 {
      counts := fun k => agg.counts k + slotValue e.2 k
      coveredMinutes := agg.coveredMinutes + 1 }

/-- `MeteringManager::live_totals`. -/
def Metering.liveTotals (mem : Metering) (sinceMin untilMin : Int) : Map ServiceId LiveAgg :=
  (mem.buckets.entries.map fun e => (e.1, e.2)).foldl (LiveAgg.addBucket sinceMin untilMin) ∅

/-- `eq_ignore_ascii_case`, of each filter that is given. -/
def ServiceIdentity.passes (identity : ServiceIdentity) (person service : Option String) : Prop :=
  (∀ name ∈ person, identity.person.toLower = name.toLower) ∧
    ∀ name ∈ service, identity.service.toLower = name.toLower

instance (identity : ServiceIdentity) (person service : Option String) :
    Decidable (identity.passes person service) := inferInstanceAs (Decidable (_ ∧ _))

/-- Adds what is in memory to the total of a service, which may be its first. -/
def addLive (live : Map ServiceId LiveAgg) (person service : Option String)
    (byId : Map ServiceId UsageTotal) (e : ServiceId × ServiceIdentity) : Map ServiceId UsageTotal :=
  match live.lookup e.1 with
  | none => byId
  | some agg =>
    if e.2.passes person service then
      let entry := (byId.lookup e.1).getD (UsageTotal.fromIdentity e)
      byId.insert e.1 { entry with
        counts := fun k => entry.counts k + agg.counts k
        coveredMinutes := entry.coveredMinutes + agg.coveredMinutes }
    else byId

namespace Meter

variable [BlobCodec]

/-- The totals of a window of minutes: what is persisted, and what is not flushed. -/
def usage (w : Meter) (person service : Option String) (sinceMin untilMin : Int) : List UsageTotal :=
  let persisted := w.store.queryUsage person service sinceMin untilMin
  let live := w.mem.liveTotals sinceMin untilMin
  if live.entries.isEmpty then persisted
  else
    let byId := persisted.foldl (fun byId total => byId.insert total.serviceId total) ∅
    let byId := (w.store.serviceIdentities live.keys).foldl (addLive live person service) byId
    (byId.entries.map (·.2)).insertionSort UsageTotal.precedes

/-- The minutes that overlap a window of seconds. -/
def minuteWindow (sinceSecs untilSecs : Int) : Int × Int :=
  (sinceSecs / 60,
    if untilSecs > sinceSecs then (untilSecs - 1) / 60 + 1 else sinceSecs / 60)

/-- `MeteringManager::query`: open time is accrued to now, then the window is read. -/
def query (w : Meter) (person service : Option String) (sinceSecs untilSecs : Int) :
    Option (Meter × List UsageTotal) :=
  (w.step (.tick w.clock)).map fun w =>
    let window := minuteWindow sinceSecs untilSecs
    (w, w.usage person service window.1 window.2)

end Meter

/-! ## The figures of a total -/

/-- The seven figures of a row are treated alike: the six counts, and the covered minutes. -/
def UsageTotal.figure (t : UsageTotal) : Option Slots → Int
  | some k => t.counts k
  | none => t.coveredMinutes

def LiveAgg.figure (agg : LiveAgg) : Option Slots → Int
  | some k => agg.counts k
  | none => agg.coveredMinutes

/-- What a minute of a row adds. -/
def rowFigure (row : DaySlots) (index : Nat) : Option Slots → Int
  | some k => row k index
  | none => if Slots.all.any fun k => row k index ≠ 0 then 1 else 0

/-- What a bucket adds. -/
def bucketFigure (b : Bucket) : Option Slots → Int
  | some k => slotValue b k
  | none => 1

variable {f : Option Slots} {a b : Int} {s : ServiceId}

theorem UsageTotal.ext_figure {t t' : UsageTotal} (hid : t.serviceId = t'.serviceId)
    (hidentity : t.identity = t'.identity) (hfigure : ∀ f, t.figure f = t'.figure f) : t = t' := by
  cases t
  cases t'
  cases hid
  cases hidentity
  exact congrArg₂ _ (funext fun k => hfigure (some k)) (hfigure none)

@[simp] theorem figure_fromIdentity (e : ServiceId × ServiceIdentity) (f : Option Slots) :
    (UsageTotal.fromIdentity e).figure f = 0 := by
  cases f <;> rfl

theorem figure_addMinute (row : DaySlots) (t : UsageTotal) (index : Nat) (f : Option Slots) :
    (t.addMinute row index).figure f = t.figure f + rowFigure row index f := by
  cases f <;> rfl

theorem figure_foldl_addMinute (row : DaySlots) (l : List Nat) (t : UsageTotal) (f : Option Slots) :
    (l.foldl (UsageTotal.addMinute row) t).figure f =
      t.figure f + (l.map fun index => rowFigure row index f).sum := by
  induction l generalizing t with
  | nil => simp
  | cons index l ih =>
    rw [List.foldl_cons, ih, figure_addMinute, List.map_cons, List.sum_cons, add_assoc]

theorem id_foldl_addMinute (row : DaySlots) (l : List Nat) (t : UsageTotal) :
    (l.foldl (UsageTotal.addMinute row) t).serviceId = t.serviceId ∧
      (l.foldl (UsageTotal.addMinute row) t).identity = t.identity := by
  induction l generalizing t with
  | nil => exact ⟨rfl, rfl⟩
  | cons index l ih => exact ih _

/-! ## What is persisted -/

namespace UsageStore

variable [BlobCodec] {st : UsageStore}

/-- What the live row of a minute adds. -/
def slotFigure (st : UsageStore) (s : ServiceId) (m : Int) (f : Option Slots) : Int :=
  rowFigure (st.live.cell (s, dayOf m)) (slotOf m) f

theorem slotFigure_of_notMem {m : Int} (h : (s, dayOf m) ∉ st.live) : st.slotFigure s m f = 0 := by
  rw [slotFigure, LiveRows.cell, AList.lookup_eq_none.mpr h]
  cases f <;> rfl

theorem figure_addDay (hlt : a < b) (t : UsageTotal) (pair : ServiceId × Int) :
    (st.addDay a b t pair).figure f = t.figure f + ∑ i ∈ Finset.range minutesPerDay,
      if a ≤ pair.2 * minutesPerDay + i ∧ pair.2 * minutesPerDay + i < b then
        st.slotFigure pair.1 (pair.2 * minutesPerDay + i) f else 0 := by
  rw [addDay, figure_foldl_addMinute]
  generalize hfirst : clampSlot a (pair.2 * minutesPerDay) = first
  generalize hlast : clampSlot b (pair.2 * minutesPerDay) = last
  have hle : first ≤ last ∧ last ≤ minutesPerDay := by
    simp only [clampSlot, minutesPerDay] at *
    omega
  have hterm (i : Nat) (hi : i ∈ Finset.range minutesPerDay) :
      (if a ≤ pair.2 * minutesPerDay + i ∧ pair.2 * minutesPerDay + i < b then
        st.slotFigure pair.1 (pair.2 * minutesPerDay + i) f else 0) =
        if first ≤ i ∧ i < first + (last - first) then rowFigure (st.live.cell pair) i f else 0 := by
    have hlt := Finset.mem_range.mp hi
    rw [slotFigure, dayOf_mul_add pair.2 hlt, slotOf_mul_add pair.2 hlt]
    refine if_congr ?_ rfl rfl
    simp only [clampSlot, minutesPerDay] at *
    omega
  rw [Finset.sum_congr rfl hterm, sum_block (by omega), List.range'_eq_map_range, List.map_map]
  rfl

theorem id_addDay (t : UsageTotal) (pair : ServiceId × Int) :
    (st.addDay a b t pair).serviceId = t.serviceId ∧
      (st.addDay a b t pair).identity = t.identity :=
  id_foldl_addMinute _ _ _

theorem foldl_addDay (hlt : a < b) (days : List (ServiceId × Int)) (t : UsageTotal) :
    (days.foldl (st.addDay a b) t).serviceId = t.serviceId ∧
      (days.foldl (st.addDay a b) t).identity = t.identity ∧
      ∀ f, (days.foldl (st.addDay a b) t).figure f = t.figure f +
        (days.map fun pair => ∑ i ∈ Finset.range minutesPerDay,
          if a ≤ pair.2 * minutesPerDay + i ∧ pair.2 * minutesPerDay + i < b then
            st.slotFigure pair.1 (pair.2 * minutesPerDay + i) f else 0).sum := by
  induction days generalizing t with
  | nil => simp
  | cons pair days ih =>
    obtain ⟨hid, hidentity, hfigure⟩ := ih (st.addDay a b t pair)
    refine ⟨hid.trans (id_addDay t pair).1, hidentity.trans (id_addDay t pair).2, fun f => ?_⟩
    rw [List.foldl_cons, hfigure, figure_addDay hlt, List.map_cons, List.sum_cons, add_assoc]

/-- The days of a window that are read for a service hold all of its live minutes of the window. -/
theorem sum_days {services : List ServiceId} (hs : s ∈ services) :
    (((((st.liveDays services).filter fun pair => a / minutesPerDay ≤ pair.2 ∧
        pair.2 ≤ (b - 1) / minutesPerDay).filter (·.1 = s))).map fun pair =>
      ∑ i ∈ Finset.range minutesPerDay,
        if a ≤ pair.2 * minutesPerDay + i ∧ pair.2 * minutesPerDay + i < b then
          st.slotFigure pair.1 (pair.2 * minutesPerDay + i) f else 0).sum =
      ∑ m ∈ Finset.Ico a b, st.slotFigure s m f := by
  have hnodup (p : ServiceId × Int → Bool) : ((st.liveDays services).filter p).Nodup := by
    rw [liveDays]
    exact ((List.perm_insertionSort _ _).nodup_iff.mpr (st.live.nodupKeys.filter _)).filter _
  have hfilter : (Finset.Ico (a / minutesPerDay * minutesPerDay)
      (((b - 1) / minutesPerDay + 1) * minutesPerDay)).filter (fun m => a ≤ m ∧ m < b) =
      Finset.Ico a b := by
    refine Finset.ext fun m => ?_
    rw [Finset.mem_filter, Finset.mem_Ico, Finset.mem_Ico]
    simp only [minutesPerDay]
    omega
  rw [Series.sum_map_filter, List.map_congr_left fun pair _ => ?_,
    Series.sum_pairs (hnodup _) (a := s)
      (D := Finset.Ico (a / minutesPerDay) ((b - 1) / minutesPerDay + 1))
      (f := fun day => ∑ i ∈ Finset.range minutesPerDay,
        if a ≤ day * minutesPerDay + i ∧ day * minutesPerDay + i < b then
          st.slotFigure s (day * minutesPerDay + i) f else 0)]
  · rw [Series.sum_blocks (by decide) _ _ fun m =>
      if a ≤ m ∧ m < b then st.slotFigure s m f else 0, ← Finset.sum_filter, hfilter]
  · intro day hday
    have hrange := decide_eq_true_iff.mp (List.mem_filter.mp hday).2
    dsimp only at hrange
    exact Finset.mem_Ico.mpr ⟨by omega, by omega⟩
  · intro day hday hnot
    have hrange := Finset.mem_Ico.mp hday
    refine Finset.sum_eq_zero fun i hi => ?_
    rw [slotFigure_of_notMem, ite_self]
    rw [dayOf_mul_add day (Finset.mem_range.mp hi)]
    intro hlive
    refine hnot (List.mem_filter.mpr ⟨?_, decide_eq_true ⟨by dsimp only; omega, by dsimp only; omega⟩⟩)
    rw [liveDays, List.mem_insertionSort, List.mem_filter]
    exact ⟨AList.mem_keys.mp hlive, decide_eq_true hs⟩
  · by_cases hservice : pair.1 = s
    · subst hservice
      simp
    · simp [hservice]

/-- The services that the filters select. -/
theorem mem_usageIdentities {person service : Option String} {e : ServiceId × ServiceIdentity} :
    e ∈ st.usageIdentities person service ↔ st.services.lookup e.1 = some e.2 ∧
      (∀ name ∈ person, e.2.person = name.toLower) ∧ ∀ name ∈ service, e.2.service = name.toLower := by
  rw [usageIdentities, List.mem_filter, decide_eq_true_iff, List.mem_map]
  refine and_congr_left fun _ => ⟨?_, fun h => ⟨_, AList.mem_lookup_iff.mp h, rfl⟩⟩
  rintro ⟨e, he, rfl⟩
  exact AList.mem_lookup_iff.mpr he

theorem nodup_usageIdentities (person service : Option String) :
    ((st.usageIdentities person service).map (·.1)).Nodup := by
  refine List.Nodup.sublist (List.filter_sublist.map _) ?_
  rw [List.map_map]
  exact st.services.nodupKeys

theorem mem_serviceIdentities {ids : List ServiceId} {e : ServiceId × ServiceIdentity} :
    e ∈ st.serviceIdentities ids ↔ st.services.lookup e.1 = some e.2 ∧ e.1 ∈ ids := by
  rw [serviceIdentities, List.mem_filter, decide_eq_true_iff, List.mem_map]
  refine and_congr_left fun _ => ⟨?_, fun h => ⟨_, AList.mem_lookup_iff.mp h, rfl⟩⟩
  rintro ⟨e, he, rfl⟩
  exact AList.mem_lookup_iff.mpr he

theorem nodup_serviceIdentities (st : UsageStore) (ids : List ServiceId) :
    ((st.serviceIdentities ids).map (·.1)).Nodup := by
  refine List.Nodup.sublist (List.filter_sublist.map _) ?_
  rw [List.map_map]
  exact st.services.nodupKeys

/-- The persisted totals: of every service that the filters select with a covered minute in the
window, the sums over the window. -/
theorem mem_queryUsage {person service : Option String} {t : UsageTotal} :
    t ∈ st.queryUsage person service a b ↔
      (t.serviceId, t.identity) ∈ st.usageIdentities person service ∧
        (∀ f, t.figure f = ∑ m ∈ Finset.Ico a b, st.slotFigure t.serviceId m f) ∧
        0 < t.coveredMinutes := by
  rw [queryUsage]
  split
  · rename_i hle
    refine iff_of_false List.not_mem_nil fun h => ?_
    have hcovered := h.2.1 none
    rw [Finset.Ico_eq_empty (by omega)] at hcovered
    exact absurd h.2.2 (by rw [show t.coveredMinutes = 0 from hcovered]; decide)
  · rename_i hle
    have hlt : a < b := by omega
    dsimp only
    have htotal (e : ServiceId × ServiceIdentity) (he : e ∈ st.usageIdentities person service) :
        let total := (((st.liveDays ((st.usageIdentities person service).map (·.1))).filter
          fun pair => a / minutesPerDay ≤ pair.2 ∧ pair.2 ≤ (b - 1) / minutesPerDay).filter
            (·.1 = e.1)).foldl (st.addDay a b) (UsageTotal.fromIdentity e)
        total.serviceId = e.1 ∧ total.identity = e.2 ∧
          ∀ f, total.figure f = ∑ m ∈ Finset.Ico a b, st.slotFigure e.1 m f := by
      obtain ⟨hid, hidentity, hfigure⟩ := foldl_addDay hlt
        (((st.liveDays ((st.usageIdentities person service).map (·.1))).filter
          fun pair => a / minutesPerDay ≤ pair.2 ∧ pair.2 ≤ (b - 1) / minutesPerDay).filter
            (·.1 = e.1)) (UsageTotal.fromIdentity e)
      refine ⟨hid, hidentity, fun f => ?_⟩
      rw [hfigure, figure_fromIdentity, zero_add, sum_days (List.mem_map_of_mem he)]
    rw [List.mem_insertionSort, List.mem_filter, List.mem_map, decide_eq_true_iff]
    constructor
    · rintro ⟨⟨e, he, rfl⟩, hcovered⟩
      obtain ⟨hid, hidentity, hfigure⟩ := htotal e he
      refine ⟨?_, fun f => ?_, hcovered⟩
      · rw [hid, hidentity]
        exact he
      · rw [hfigure, hid]
    · rintro ⟨he, hfigure, hcovered⟩
      obtain ⟨hid, hidentity, htotal⟩ := htotal _ he
      exact ⟨⟨_, he, UsageTotal.ext_figure hid hidentity fun f => (htotal f).trans (hfigure f).symm⟩,
        hcovered⟩

theorem nodup_queryUsage (st : UsageStore) (person service : Option String) :
    ((st.queryUsage person service a b).map (·.serviceId)).Nodup := by
  rw [queryUsage]
  split
  · exact List.nodup_nil
  · dsimp only
    refine (((List.perm_insertionSort _ _).map _).nodup_iff).mpr ?_
    refine List.Nodup.sublist (List.filter_sublist.map _) ?_
    rw [List.map_map]
    have hids : (st.usageIdentities person service).map (·.1) = (st.usageIdentities person service).map
        ((·.serviceId) ∘ fun e => (((st.liveDays ((st.usageIdentities person service).map (·.1))).filter
          fun pair => a / minutesPerDay ≤ pair.2 ∧ pair.2 ≤ (b - 1) / minutesPerDay).filter
            (·.1 = e.1)).foldl (st.addDay a b) (UsageTotal.fromIdentity e)) := by
      refine List.map_congr_left fun e _ => ?_
      exact (foldl_addDay (by omega) _ (UsageTotal.fromIdentity e)).1.symm
    exact hids ▸ nodup_usageIdentities person service

end UsageStore

/-! ## What is in memory -/

namespace Metering

/-- What the bucket of a minute adds. -/
def heldFigure (mem : Metering) (s : ServiceId) (m : Int) (f : Option Slots) : Int :=
  ((mem.buckets.lookup (s, m)).map fun b => bucketFigure b f).getD 0

variable {mem : Metering}

theorem figure_addBucket (out : Map ServiceId LiveAgg) (e : (ServiceId × Int) × Bucket) :
    (s ∈ LiveAgg.addBucket a b out e ↔
      s ∈ out ∨ (a ≤ e.1.2 ∧ e.1.2 < b) ∧ e.1.1 = s) ∧
    (((LiveAgg.addBucket a b out e).lookup s).getD {}).figure f =
      ((out.lookup s).getD {}).figure f + if a ≤ e.1.2 ∧ e.1.2 < b then
        (if e.1.1 = s then bucketFigure e.2 f else 0) else 0 := by
  rw [LiveAgg.addBucket]
  split
  · rename_i hout
    rw [if_neg (by omega), add_zero]
    exact ⟨(or_iff_left fun h => by omega).symm, rfl⟩
  · rename_i hin
    rw [if_pos (by omega)]
    dsimp only
    rw [AList.mem_insert, Map.lookup_insert_ite]
    refine ⟨?_, ?_⟩
    · rw [or_comm, and_iff_right (by omega), eq_comm]
    · by_cases hs : e.1.1 = s
      · rw [if_pos hs.symm, if_pos hs, ← hs, Option.getD_some]
        cases f <;> rfl
      · rw [if_neg (Ne.symm hs), if_neg hs, add_zero]

theorem foldl_addBucket (l : List ((ServiceId × Int) × Bucket)) (out : Map ServiceId LiveAgg) :
    (s ∈ l.foldl (LiveAgg.addBucket a b) out ↔
      s ∈ out ∨ ∃ e ∈ l, (a ≤ e.1.2 ∧ e.1.2 < b) ∧ e.1.1 = s) ∧
    (((l.foldl (LiveAgg.addBucket a b) out).lookup s).getD {}).figure f =
      ((out.lookup s).getD {}).figure f + (l.map fun e => if a ≤ e.1.2 ∧ e.1.2 < b then
        (if e.1.1 = s then bucketFigure e.2 f else 0) else 0).sum := by
  induction l generalizing out with
  | nil => simp
  | cons e l ih =>
    obtain ⟨hmem, hfigure⟩ := ih (LiveAgg.addBucket a b out e)
    obtain ⟨hstep, hadd⟩ := figure_addBucket (f := f) (s := s) out e
    rw [List.foldl_cons, hmem, hfigure, hstep, hadd, List.map_cons, List.sum_cons, add_assoc]
    refine ⟨?_, rfl⟩
    simp only [List.mem_cons, or_and_right, exists_or, exists_eq_left, or_assoc]

theorem mem_liveTotals : s ∈ mem.liveTotals a b ↔
    ∃ m, a ≤ m ∧ m < b ∧ (s, m) ∈ mem.buckets := by
  rw [liveTotals, (foldl_addBucket (f := none) _ ∅).1]
  constructor
  · rintro (h | ⟨e, he, hwindow, rfl⟩)
    · exact absurd h (AList.notMem_empty _)
    · obtain ⟨e', he', rfl⟩ := List.mem_map.mp he
      have hlook : mem.buckets.lookup e'.1 = some e'.2 := AList.mem_lookup_iff.mpr he'
      exact ⟨e'.1.2, hwindow.1, hwindow.2, AList.lookup_isSome.mp (hlook ▸ rfl)⟩
  · rintro ⟨m, hle, hlt, hkey⟩
    obtain ⟨b, hb⟩ := Option.isSome_iff_exists.mp (AList.lookup_isSome.mpr hkey)
    exact .inr ⟨((s, m), b), List.mem_map.mpr ⟨_, AList.mem_lookup_iff.mp hb, rfl⟩, ⟨hle, hlt⟩, rfl⟩

theorem figure_liveTotals : (((mem.liveTotals a b).lookup s).getD {}).figure f =
    ∑ m ∈ Finset.Ico a b, mem.heldFigure s m f := by
  have hnodup (p : ServiceId × Int → Bool) : (mem.buckets.keys.filter p).Nodup :=
    mem.buckets.nodupKeys.filter p
  have hentries : (mem.buckets.entries.map fun e => (e.1, e.2)).map (fun e =>
      if a ≤ e.1.2 ∧ e.1.2 < b then (if e.1.1 = s then bucketFigure e.2 f else 0) else 0) =
      mem.buckets.keys.map fun p => if decide (a ≤ p.2 ∧ p.2 < b) = true then
        (if p.1 = s then mem.heldFigure s p.2 f else 0) else 0 := by
    rw [AList.keys, List.keys, List.map_map, List.map_map]
    refine List.map_congr_left fun e he => ?_
    have hlook : mem.buckets.lookup e.1 = some e.2 := AList.mem_lookup_iff.mpr he
    simp only [Function.comp_apply, decide_eq_true_eq]
    refine if_congr Iff.rfl ?_ rfl
    split
    · rename_i hs
      rw [heldFigure, ← hs, hlook]
      rfl
    · rfl
  rw [liveTotals, (foldl_addBucket (f := f) _ ∅).2, hentries, ← Series.sum_map_filter,
    Series.sum_pairs (hnodup _) (a := s) (D := Finset.Ico a b)
      (f := fun m => mem.heldFigure s m f)]
  · rw [AList.lookup_empty]
    cases f <;> exact zero_add _
  · intro m hm
    exact Finset.mem_Ico.mpr (decide_eq_true_iff.mp (List.mem_filter.mp hm).2)
  · intro m hm hnot
    have hkey : (s, m) ∉ mem.buckets := fun h => hnot (List.mem_filter.mpr
      ⟨AList.mem_keys.mp h, decide_eq_true (Finset.mem_Ico.mp hm)⟩)
    rw [heldFigure, AList.lookup_eq_none.mpr hkey]
    rfl

end Metering

/-! ## What a query returns -/

namespace Meter

variable [BlobCodec] {w : Meter} {person service : Option String}

/-- Names are stored in lower case. -/
def NamesLower (w : Meter) : Prop :=
  ∀ id i, w.store.services.lookup id = some i →
    i.person.toLower = i.person ∧ i.service.toLower = i.service

theorem mem_usageIdentities_iff (hnames : w.NamesLower) {e : ServiceId × ServiceIdentity} :
    e ∈ w.store.usageIdentities person service ↔
      w.store.services.lookup e.1 = some e.2 ∧ e.2.passes person service := by
  rw [UsageStore.mem_usageIdentities]
  refine and_congr_right fun hlook => ?_
  obtain ⟨hperson, hservice⟩ := hnames e.1 e.2 hlook
  rw [ServiceIdentity.passes, hperson, hservice]

theorem slotFigure_nonneg (st : UsageStore) (s : ServiceId) (m : Int) :
    0 ≤ st.slotFigure s m none := by
  rw [UsageStore.slotFigure, rowFigure]
  split <;> decide

omit [BlobCodec] in
theorem heldFigure_nonneg (mem : Metering) (s : ServiceId) (m : Int) : 0 ≤ mem.heldFigure s m none := by
  rw [Metering.heldFigure]
  cases mem.buckets.lookup (s, m) with
  | none => exact le_rfl
  | some b => exact Int.one_nonneg

/-- Where no minute is covered, nothing is counted. -/
theorem sum_slotFigure_eq_zero {st : UsageStore} {s : ServiceId}
    (h : ¬0 < ∑ m ∈ Finset.Ico a b, st.slotFigure s m none) (f : Option Slots) :
    ∑ m ∈ Finset.Ico a b, st.slotFigure s m f = 0 := by
  have hzero := (Finset.sum_eq_zero_iff_of_nonneg fun m _ => slotFigure_nonneg st s m).mp
    (le_antisymm (not_lt.mp h) (Finset.sum_nonneg fun m _ => slotFigure_nonneg st s m))
  refine Finset.sum_eq_zero fun m hm => ?_
  have hrow := hzero m hm
  cases f with
  | none => exact hrow
  | some k =>
    by_contra hne
    rw [UsageStore.slotFigure, rowFigure, if_pos (List.any_eq_true.mpr
      ⟨k, k.mem_all, decide_eq_true hne⟩)] at hrow
    cases hrow

omit [BlobCodec] in
theorem figure_liveTotals_pos {mem : Metering} {s : ServiceId} (h : s ∈ mem.liveTotals a b) :
    0 < (((mem.liveTotals a b).lookup s).getD {}).figure none := by
  obtain ⟨m, hle, hlt, hkey⟩ := Metering.mem_liveTotals.mp h
  obtain ⟨b, hb⟩ := Option.isSome_iff_exists.mp (AList.lookup_isSome.mpr hkey)
  rw [Metering.figure_liveTotals]
  refine Finset.sum_pos' (fun m _ => heldFigure_nonneg mem s m)
    ⟨m, Finset.mem_Ico.mpr ⟨hle, hlt⟩, ?_⟩
  rw [Metering.heldFigure, hb]
  exact Int.one_pos

/-- What the buckets add to a service that has some in the window. -/
def withLive (live : Map ServiceId LiveAgg) (person service : Option String)
    (e : ServiceId × ServiceIdentity) (known : Option UsageTotal) : Option UsageTotal :=
  match live.lookup e.1 with
  | none => known
  | some agg =>
    if e.2.passes person service then
      some { known.getD (UsageTotal.fromIdentity e) with
        counts := fun k => (known.getD (UsageTotal.fromIdentity e)).counts k + agg.counts k
        coveredMinutes :=
          (known.getD (UsageTotal.fromIdentity e)).coveredMinutes + agg.coveredMinutes }
    else known

omit [BlobCodec] in
theorem lookup_addLive (live : Map ServiceId LiveAgg) (byId : Map ServiceId UsageTotal)
    (e : ServiceId × ServiceIdentity) (s : ServiceId) :
    (addLive live person service byId e).lookup s =
      if e.1 = s then withLive live person service e (byId.lookup s) else byId.lookup s := by
  rw [addLive, withLive]
  by_cases hs : e.1 = s
  · subst hs
    rw [if_pos rfl]
    cases live.lookup e.1 with
    | none => rfl
    | some agg =>
      dsimp only
      split
      · rw [AList.lookup_insert]
      · rfl
  · rw [if_neg hs]
    cases live.lookup e.1 with
    | none => rfl
    | some agg =>
      dsimp only
      split
      · rw [AList.lookup_insert_ne (Ne.symm hs)]
      · rfl

omit [BlobCodec] in
/-- The persisted totals by service. -/
theorem lookup_persisted {totals : List UsageTotal} (hnodup : (totals.map (·.serviceId)).Nodup)
    (t : UsageTotal) (s : ServiceId) : (totals.foldl (fun byId (total : UsageTotal) =>
      byId.insert total.serviceId total) (∅ : Map ServiceId UsageTotal)).lookup s = some t ↔
      t ∈ totals ∧ t.serviceId = s := by
  obtain ⟨hother, hvalue⟩ := Map.lookup_foldl_of_nodup (g := fun t _ => some t)
    (fun byId (total : UsageTotal) k => (Map.lookup_insert_ite byId total.serviceId k total).trans
      (if_congr eq_comm rfl rfl)) hnodup (∅ : Map ServiceId UsageTotal)
  constructor
  · intro h
    by_cases hs : ∃ t' ∈ totals, t'.serviceId = s
    · obtain ⟨t', ht', rfl⟩ := hs
      rw [hvalue t' ht'] at h
      obtain rfl := Option.some.inj h
      exact ⟨ht', rfl⟩
    · rw [hother s fun t' ht' heq => hs ⟨t', ht', heq⟩, AList.lookup_empty] at h
      cases h
  · rintro ⟨ht, rfl⟩
    exact hvalue t ht

omit [BlobCodec] in
/-- A total with what is in memory: the figures of a service that is persisted, or that is not
covered in the store, and of its buckets. -/
theorem withLive_eq_some {live : Map ServiceId LiveAgg} {agg : LiveAgg}
    {e : ServiceId × ServiceIdentity} {known : Option UsageTotal} (slots held : Option Slots → Int)
    (hlive : live.lookup e.1 = some agg) (hpasses : e.2.passes person service)
    (hknown : ∀ t, known = some t → t.serviceId = e.1 ∧ t.identity = e.2 ∧ ∀ f, t.figure f = slots f)
    (hnone : known = none → ∀ f, slots f = 0) (hagg : ∀ f, agg.figure f = held f) (t : UsageTotal) :
    withLive live person service e known = some t ↔
      t.serviceId = e.1 ∧ t.identity = e.2 ∧ ∀ f, t.figure f = slots f + held f := by
  rw [withLive, hlive]
  dsimp only
  rw [if_pos hpasses, Option.some.injEq]
  have hentry : (known.getD (UsageTotal.fromIdentity e)).serviceId = e.1 ∧
      (known.getD (UsageTotal.fromIdentity e)).identity = e.2 ∧
      ∀ f, (known.getD (UsageTotal.fromIdentity e)).figure f = slots f := by
    cases known with
    | none => exact ⟨rfl, rfl, fun f => (figure_fromIdentity e f).trans (hnone rfl f).symm⟩
    | some t => exact hknown t rfl
  obtain ⟨hid, hidentity, hfigure⟩ := hentry
  have hsum (f : Option Slots) : UsageTotal.figure
      { known.getD (UsageTotal.fromIdentity e) with
        counts := fun k => (known.getD (UsageTotal.fromIdentity e)).counts k + agg.counts k
        coveredMinutes :=
          (known.getD (UsageTotal.fromIdentity e)).coveredMinutes + agg.coveredMinutes } f =
      slots f + held f := by
    rw [← hfigure, ← hagg]
    cases f <;> rfl
  constructor
  · rintro rfl
    exact ⟨hid, hidentity, hsum⟩
  · rintro ⟨hid', hidentity', hfigure'⟩
    exact UsageTotal.ext_figure (hid.trans hid'.symm) (hidentity.trans hidentity'.symm)
      fun f => (hsum f).trans (hfigure' f).symm

/-- What a query returns: of every service that the filters select with a covered minute or a bucket
in the window, the sums over the window of the two layers. -/
theorem mem_usage (hnames : w.NamesLower) {t : UsageTotal} :
    t ∈ w.usage person service a b ↔
      w.store.services.lookup t.serviceId = some t.identity ∧ t.identity.passes person service ∧
        (∀ f, t.figure f = ∑ m ∈ Finset.Ico a b,
          (w.store.slotFigure t.serviceId m f + w.mem.heldFigure t.serviceId m f)) ∧
        0 < t.coveredMinutes := by
  have hpersisted {t : UsageTotal} : t ∈ w.store.queryUsage person service a b ↔
      w.store.services.lookup t.serviceId = some t.identity ∧ t.identity.passes person service ∧
        (∀ f, t.figure f = ∑ m ∈ Finset.Ico a b, w.store.slotFigure t.serviceId m f) ∧
        0 < t.coveredMinutes := by
    rw [UsageStore.mem_queryUsage, mem_usageIdentities_iff hnames, and_assoc]
  rw [usage]
  dsimp only
  split
  · rename_i hempty
    have hzero (s : ServiceId) (f : Option Slots) :
        ∑ m ∈ Finset.Ico a b, w.mem.heldFigure s m f = 0 := by
      rw [← Metering.figure_liveTotals, AList.lookup_eq_none.mpr]
      · cases f <;> rfl
      · intro hmem
        have hkeys := AList.mem_keys.mp hmem
        rw [AList.keys, List.isEmpty_iff.mp hempty] at hkeys
        cases hkeys
    simp only [hpersisted, Finset.sum_add_distrib, hzero, add_zero]
  · rw [List.mem_insertionSort, List.mem_map]
    have hlook (s : ServiceId) (t : UsageTotal) :=
      lookup_persisted (w.store.nodup_queryUsage (a := a) (b := b) person service) t s
    generalize w.store.queryUsage person service a b = persisted at hpersisted hlook ⊢
    generalize persisted.foldl (fun byId (total : UsageTotal) =>
      byId.insert total.serviceId total) (∅ : Map ServiceId UsageTotal) = byId at hlook ⊢
    obtain ⟨hother, hvalue⟩ := Map.lookup_foldl_of_nodup (g := withLive _ person service)
      (lookup_addLive (w.mem.liveTotals a b)) (w.store.nodup_serviceIdentities
        (w.mem.liveTotals a b).keys) byId
    have hagg (s : ServiceId) (f : Option Slots) : (((w.mem.liveTotals a b).lookup s).getD {}).figure f =
        ∑ m ∈ Finset.Ico a b, w.mem.heldFigure s m f := Metering.figure_liveTotals
    have hentry (s : ServiceId) (t : UsageTotal) :
        ((w.store.serviceIdentities (w.mem.liveTotals a b).keys).foldl
          (addLive (w.mem.liveTotals a b) person service) byId).lookup s = some t ↔
          t.serviceId = s ∧ w.store.services.lookup s = some t.identity ∧
            t.identity.passes person service ∧ (∀ f, t.figure f = ∑ m ∈ Finset.Ico a b,
              (w.store.slotFigure s m f + w.mem.heldFigure s m f)) ∧ 0 < t.coveredMinutes := by
      simp only [Finset.sum_add_distrib, ← hagg]
      have hbyId (t : UsageTotal) : byId.lookup s = some t ↔ t.serviceId = s ∧
          w.store.services.lookup s = some t.identity ∧ t.identity.passes person service ∧
          (∀ f, t.figure f = ∑ m ∈ Finset.Ico a b, w.store.slotFigure s m f) ∧
          0 < t.coveredMinutes := by
        rw [hlook, hpersisted, and_comm]
        refine and_congr_right fun hid => ?_
        rw [hid]
      by_cases hlive : s ∈ w.mem.liveTotals a b
      · cases hi : w.store.services.lookup s with
        | none =>
          rw [hother s fun e he heq => ?_, hbyId, hi]
          · exact iff_of_false (fun h => by cases h.2.1) fun h => by cases h.2.1
          · rw [← heq, (UsageStore.mem_serviceIdentities.mp he).1] at hi
            cases hi
        | some i =>
          rw [hvalue (s, i) (UsageStore.mem_serviceIdentities.mpr ⟨hi, AList.mem_keys.mp hlive⟩)]
          obtain ⟨agg, hsome⟩ := Option.isSome_iff_exists.mp (AList.lookup_isSome.mpr hlive)
          by_cases hpasses : i.passes person service
          · rw [withLive_eq_some (fun f => ∑ m ∈ Finset.Ico a b, w.store.slotFigure s m f)
              agg.figure hsome hpasses (fun t ht => ?_) (fun hnone f => ?_) fun _ => rfl]
            · rw [hsome, Option.getD_some, Option.some.injEq]
              refine and_congr_right fun _ => ⟨?_, ?_⟩
              · rintro ⟨hidentity, hfigure⟩
                refine ⟨hidentity.symm, hidentity ▸ hpasses, hfigure, ?_⟩
                have hcovered : t.coveredMinutes = _ := hfigure none
                have hslots := Finset.sum_nonneg fun m (_ : m ∈ Finset.Ico a b) =>
                  slotFigure_nonneg w.store s m
                have hheld := figure_liveTotals_pos hlive
                rw [hsome, Option.getD_some] at hheld
                omega
              · rintro ⟨hidentity, -, hfigure, -⟩
                exact ⟨hidentity.symm, hfigure⟩
            · obtain ⟨hid, hidentity, -, hfigure, -⟩ := (hbyId t).mp ht
              rw [hi] at hidentity
              exact ⟨hid, (Option.some.inj hidentity).symm, hfigure⟩
            · refine sum_slotFigure_eq_zero (fun hcovered => ?_) f
              have hknown := (hbyId {
                serviceId := s, identity := i
                counts := fun k => ∑ m ∈ Finset.Ico a b, w.store.slotFigure s m (some k)
                coveredMinutes := ∑ m ∈ Finset.Ico a b, w.store.slotFigure s m none }).mpr
                ⟨rfl, hi, hpasses, fun f => by cases f <;> rfl, hcovered⟩
              rw [hnone] at hknown
              cases hknown
          · have hnot (t : UsageTotal) (hidentity : some i = some t.identity) :
                ¬t.identity.passes person service := by
              rw [← Option.some.inj hidentity]
              exact hpasses
            rw [withLive, hsome]
            dsimp only
            rw [if_neg hpasses, hbyId, hi]
            exact iff_of_false (fun h => hnot t h.2.1 h.2.2.1) fun h => hnot t h.2.1 h.2.2.1
      · have hzero (f : Option Slots) :
            (((w.mem.liveTotals a b).lookup s).getD {}).figure f = 0 := by
          rw [AList.lookup_eq_none.mpr hlive]
          cases f <;> rfl
        rw [hother s fun e he heq => hlive ?_, hbyId]
        · simp only [hzero, add_zero]
        · rw [← heq]
          exact AList.mem_keys.mpr (UsageStore.mem_serviceIdentities.mp he).2
    constructor
    · rintro ⟨e, he, rfl⟩
      obtain ⟨hid, hrest⟩ := (hentry e.1 e.2).mp (AList.mem_lookup_iff.mpr he)
      rw [hid]
      exact hrest
    · intro h
      exact ⟨⟨t.serviceId, t⟩, AList.mem_lookup_iff.mp ((hentry t.serviceId t).mpr ⟨rfl, h⟩), rfl⟩

/-! ## Queries of a run -/

variable {w' w₀ : Meter} {l : List Act} {totals : List UsageTotal} {i : ServiceIdentity}
  {sinceSecs untilSecs : Int}

/-- The tick of a query is never older than a mark. -/
theorem Folds.foldGuard_tick (h : w.Folds) : w.FoldGuard (.tick w.clock) := by
  refine ⟨trivial, fun e he => ?_⟩
  have hmark : w.mem.registered.lookup e.1 = some e.2 := AList.mem_lookup_iff.mpr he
  have hsince := h.exact.clocked.registered.mpr (AList.lookup_isSome.mp
    (Option.isSome_of_eq_some hmark))
  obtain ⟨start, hstart⟩ := Option.isSome_iff_exists.mp (AList.lookup_isSome.mpr hsince)
  exact (h.exact.clocked.mark hstart hmark).2

/-- What memory holds of a minute that is accounted for is what a query adds. -/
theorem Accounted.heldFigure_eq {m : Int} {k : Slots} (h : w.Accounted s m k) :
    w.mem.heldFigure s m (some k) = w.mem.held s m k := by
  have hbound : w.mem.held s m k ≤ k.cap := by
    have hslot := h.slot
    have hfolded := h.folded
    have hflying := h.flying_nonneg
    have htotal := h.total
    have hobserved := h.bound
    omega
  rw [Metering.held, countIn] at hbound ⊢
  rw [Metering.heldFigure]
  cases hb : w.mem.buckets.lookup (s, m) with
  | none => exact (Bucket.count_default k).symm
  | some b =>
    rw [hb] at hbound
    exact slotValue_eq_count hbound

omit [BlobCodec] in
theorem sum_heldFigure_eq_zero {mem : Metering}
    (h : ¬0 < ∑ m ∈ Finset.Ico a b, mem.heldFigure s m none) (f : Option Slots) :
    ∑ m ∈ Finset.Ico a b, mem.heldFigure s m f = 0 := by
  have hzero := (Finset.sum_eq_zero_iff_of_nonneg fun m _ => heldFigure_nonneg mem s m).mp
    (le_antisymm (not_lt.mp h) (Finset.sum_nonneg fun m _ => heldFigure_nonneg mem s m))
  refine Finset.sum_eq_zero fun m hm => ?_
  have hrow := hzero m hm
  rw [Metering.heldFigure] at hrow ⊢
  cases hb : mem.buckets.lookup (s, m) with
  | none => rfl
  | some b =>
    rw [hb] at hrow
    cases hrow

/-- What a query shows of a service: nothing where nothing is persisted or in memory. -/
theorem counts_usage (hnames : w.NamesLower) (hs : w.store.services.lookup s = some i)
    (hpasses : i.passes person service) (k : Slots) :
    (∀ t ∈ w.usage person service a b, t.serviceId = s → t.counts k =
      ∑ m ∈ Finset.Ico a b, (w.store.slot s m k + w.mem.heldFigure s m (some k))) ∧
    ((∀ t ∈ w.usage person service a b, t.serviceId ≠ s) →
      ∑ m ∈ Finset.Ico a b, (w.store.slot s m k + w.mem.heldFigure s m (some k)) = 0) := by
  constructor
  · rintro t ht rfl
    exact ((mem_usage hnames).mp ht).2.2.1 (some k)
  · intro hnone
    have hcovered : ¬0 < ∑ m ∈ Finset.Ico a b,
        (w.store.slotFigure s m none + w.mem.heldFigure s m none) := by
      intro hcovered
      refine hnone {
        serviceId := s, identity := i
        counts := fun k => ∑ m ∈ Finset.Ico a b,
          (w.store.slotFigure s m (some k) + w.mem.heldFigure s m (some k))
        coveredMinutes := ∑ m ∈ Finset.Ico a b,
          (w.store.slotFigure s m none + w.mem.heldFigure s m none) } ?_ rfl
      exact (mem_usage hnames).mpr ⟨hs, hpasses, fun f => by cases f <;> rfl, hcovered⟩
    have hslots := Finset.sum_nonneg fun m (_ : m ∈ Finset.Ico a b) =>
      slotFigure_nonneg w.store s m
    have hheld := Finset.sum_nonneg fun m (_ : m ∈ Finset.Ico a b) =>
      heldFigure_nonneg w.mem s m
    rw [Finset.sum_add_distrib] at hcovered
    have hslot : ∑ m ∈ Finset.Ico a b, w.store.slot s m k = 0 :=
      sum_slotFigure_eq_zero (by omega) (some k)
    rw [Finset.sum_add_distrib, hslot, sum_heldFigure_eq_zero (by omega), add_zero]

end Meter

end TunnelWeaver.Server
