import TunnelWeaver.Lib.Extent
import TunnelWeaver.Server.UsageStore

/-! The span that the traffic of a window covers (`store/usage_live.rs`), in minutes. The live days
are measured to the minute, by the bytes in alone; the folded ones to the day. -/

namespace TunnelWeaver.Server

open Extent (IsExtent extent)

/-- `iter().position(|value| *value > 0)` of an array. -/
def position (values : Nat → Int) : Option Nat :=
  (List.range minutesPerDay).find? fun i => 0 < values i

/-- `iter().rposition(|value| *value > 0)` of an array. -/
def rposition (values : Nat → Int) : Option Nat :=
  (List.range minutesPerDay).reverse.find? fun i => 0 < values i

def secsPerDay : Int := minutesPerDay * 60

theorem find?_first {α : Type} {r : α → α → Prop} {p : α → Bool} {l : List α} {a b : α}
    (hl : l.Pairwise r) (hfind : l.find? p = some a) (hb : b ∈ l) (hp : p b = true) :
    a = b ∨ r a b := by
  obtain ⟨-, before, after, rfl, hbefore⟩ := List.find?_eq_some_iff_append.mp hfind
  obtain ⟨-, hafter, -⟩ := List.pairwise_append.mp hl
  rcases List.mem_append.mp hb with hb | hb
  · have hnot := hbefore b hb
    rw [hp] at hnot
    cases hnot
  · rcases List.mem_cons.mp hb with rfl | hb
    · exact .inl rfl
    · exact .inr ((List.pairwise_cons.mp hafter).1 b hb)

/-- What is found has traffic. -/
theorem of_position {values : Nat → Int} {i : Nat}
    (h : position values = some i ∨ rposition values = some i) :
    i < minutesPerDay ∧ 0 < values i := by
  unfold position rposition at h
  rcases h with h | h
  · have hvalue := List.find?_some h
    exact ⟨List.mem_range.mp (List.mem_of_find?_eq_some h), by simpa using hvalue⟩
  · have hvalue := List.find?_some h
    exact ⟨List.mem_range.mp (List.mem_reverse.mp (List.mem_of_find?_eq_some h)),
      by simpa using hvalue⟩

/-- The first and the last index span the ones with traffic. -/
theorem positions_span {values : Nat → Int} {j : Nat} (hj : j < minutesPerDay)
    (hvalue : 0 < values j) : ∃ first last, position values = some first ∧
      rposition values = some last ∧ first ≤ j ∧ j ≤ last := by
  have hmem := List.mem_range.mpr hj
  have hp : (fun i => decide (0 < values i)) j = true := decide_eq_true hvalue
  cases hfirst : position values with
  | none => exact absurd hp (List.find?_eq_none.mp hfirst j hmem)
  | some first =>
    cases hlast : rposition values with
    | none => exact absurd hp (List.find?_eq_none.mp hlast j (List.mem_reverse.mpr hmem))
    | some last =>
      have hle := find?_first List.pairwise_lt_range hfirst hmem hp
      have hge := find?_first (List.pairwise_reverse.mpr List.pairwise_lt_range) hlast
        (List.mem_reverse.mpr hmem) hp
      exact ⟨first, last, rfl, rfl, by omega, by omega⟩

/-! ## Windows -/

/-- A minute of which some second is in the window. -/
def InWindow (start stop minute : Int) : Prop :=
  ∃ second, start ≤ second ∧ second < stop ∧ second / 60 = minute

/-- A live day that is read: it meets the window, or begins where the window ends. -/
def Touched (start stop day : Int) : Prop := day * secsPerDay ≤ stop ∧ start < (day + 1) * secsPerDay

section
variable {start stop : Int}

instance ordConnected_inWindow : {m | InWindow start stop m}.OrdConnected where
  out' := by
    rintro a ⟨first, hfirst, hfirst', rfl⟩ b ⟨last, hlast, hlast', rfl⟩ m ⟨hle, hle'⟩
    by_cases hm : 60 * m ≤ first
    · exact ⟨first, hfirst, hfirst', by omega⟩
    · exact ⟨60 * m, by omega, by omega, by omega⟩

theorem finite_inWindow : {m | InWindow start stop m}.Finite := by
  refine (Set.finite_Icc (start / 60) (stop / 60)).subset ?_
  rintro m ⟨second, hstart, hstop, rfl⟩
  exact ⟨by omega, by omega⟩

theorem touched_of_inWindow {m : Int} (h : InWindow start stop m) :
    Touched start stop (dayOf m) := by
  obtain ⟨second, hstart, hstop, rfl⟩ := h
  simp only [Touched, dayOf, secsPerDay, minutesPerDay]
  omega

end

namespace UsageStore

/-! ## The span -/

variable [BlobCodec] (st : UsageStore) (services : List ServiceId) (start stop : Int)

/-- Every service and day with a live row. -/
def liveDays : List (ServiceId × Int) :=
  (st.live.keys.filter fun pair => pair.1 ∈ services).insertionSort fun p q => toLex p ≤ toLex q

/-- The arrays asked for, of the rows of a day. -/
def readDaySlotsOf (day : Int) (slots : List Slots) : List ((ServiceId × Slots) × (Nat → Int)) :=
  (st.live.keys.filter fun pair => pair.2 = day ∧ pair.1 ∈ services).flatMap fun pair =>
    slots.map fun k => ((pair.1, k), st.live.cell pair k)

/-- The rows that the query over the folded days selects, by their days. -/
def foldedDays : List Int :=
  (st.daily.keys.filter fun pair =>
    start / secsPerDay ≤ pair.2 ∧ pair.2 ≤ stop / secsPerDay ∧ pair.1 ∈ services ∧
      (st.daily.lookup pair).any fun row =>
        row.total .bytesIn + row.total .bytesOut + row.total .tunnelIn + row.total .tunnelOut +
          row.total .requests > 0).map (·.2)

/-- The first and the last minute of the folded days with traffic, at day resolution. -/
def foldedMinutes : List Int :=
  match (st.foldedDays services start stop).min?, (st.foldedDays services start stop).max? with
  | some earliest, some latest => [earliest * minutesPerDay, (latest + 1) * minutesPerDay - 1]
  | _, _ => []

/-- The live days that are read. -/
def touchedDays : List Int :=
  ((((st.liveDays services).map (·.2)).filter fun day =>
    day * minutesPerDay * 60 ≤ stop ∧ (day + 1) * minutesPerDay * 60 > start).insertionSort
      (· ≤ ·)).dedup

/-- The first and the last minute of each array of the live days. -/
def liveMinutes : List Int :=
  (st.touchedDays services start stop).flatMap fun day =>
    (st.readDaySlotsOf services day [.bytesIn]).flatMap fun e =>
      ((position e.2).toList ++ (rposition e.2).toList).map fun (index : Nat) =>
        day * minutesPerDay + index

def coveredSpan : Option (Int × Int) :=
  if services.isEmpty then none
  else extent (st.foldedMinutes services start stop ++ st.liveMinutes services start stop)

/-! ## The traffic of a window -/

/-- Some service has traffic in the minute; open time is not traffic. -/
def Metered (minute : Int) : Prop :=
  ∃ service ∈ services, ∃ k, k ≠ Slots.openMs ∧ 0 < st.slot service minute k

def traffic : Set Int := {m | InWindow start stop m ∧ st.Metered services m}

/-- Some service has bytes in. -/
def HasBytesIn (minute : Int) : Prop := ∃ service ∈ services, 0 < st.slot service minute .bytesIn

/-- A folded day with traffic among the days from that of `start` to that of `stop`. -/
def FoldedTraffic (day : Int) : Prop :=
  start / secsPerDay ≤ day ∧ day ≤ stop / secsPerDay ∧
    ∃ service ∈ services, ∃ row, st.daily.lookup (service, day) = some row ∧
      0 < row.total .bytesIn + row.total .bytesOut + row.total .tunnelIn + row.total .tunnelOut +
        row.total .requests

/-- No day of the window is folded. -/
def Unfolded : Prop :=
  ∀ service ∈ services, ∀ second, start ≤ second → second < stop →
    (service, second / secsPerDay) ∉ st.daily

/-! ## What is read -/

variable {st : UsageStore} {services : List ServiceId} {start stop m : Int}

theorem mem_touchedDays {day : Int} : day ∈ st.touchedDays services start stop ↔
    (∃ service ∈ services, (service, day) ∈ st.live) ∧ Touched start stop day := by
  rw [touchedDays, List.mem_dedup, List.mem_insertionSort, List.mem_filter, List.mem_map]
  simp only [liveDays, List.mem_insertionSort, List.mem_filter, decide_eq_true_eq]
  refine and_congr ⟨?_, ?_⟩ ?_
  · rintro ⟨⟨service, day⟩, ⟨hlive, hservice⟩, rfl⟩
    exact ⟨service, hservice, AList.mem_keys.mpr hlive⟩
  · rintro ⟨service, hservice, hlive⟩
    exact ⟨(service, day), ⟨AList.mem_keys.mp hlive, hservice⟩, rfl⟩
  · simp only [Touched, secsPerDay, minutesPerDay]
    omega

theorem mem_liveMinutes : m ∈ st.liveMinutes services start stop ↔
    ∃ day, Touched start stop day ∧ ∃ service ∈ services, (service, day) ∈ st.live ∧
      ∃ i, (position (st.live.cell (service, day) .bytesIn) = some i ∨
        rposition (st.live.cell (service, day) .bytesIn) = some i) ∧
        m = day * minutesPerDay + (i : Nat) := by
  rw [liveMinutes, List.mem_flatMap]
  refine exists_congr fun day => ?_
  simp only [mem_touchedDays, readDaySlotsOf, List.mem_flatMap, List.mem_filter, List.mem_map,
    List.mem_singleton, List.mem_append, Option.mem_toList, decide_eq_true_eq]
  constructor
  · rintro ⟨⟨-, htouched⟩, -, ⟨⟨service, day⟩, ⟨hlive, rfl, hservice⟩, k, rfl, rfl⟩, i, hi, rfl⟩
    exact ⟨htouched, service, hservice, AList.mem_keys.mpr hlive, i, hi, rfl⟩
  · rintro ⟨htouched, service, hservice, hlive, i, hi, rfl⟩
    refine ⟨⟨⟨service, hservice, hlive⟩, htouched⟩, _, ⟨(service, day), ⟨?_, rfl, hservice⟩,
      .bytesIn, rfl, rfl⟩, i, hi, rfl⟩
    exact AList.mem_keys.mp hlive

/-- The minutes with bytes in of the days that are read. -/
def Reads (st : UsageStore) (services : List ServiceId) (start stop minute : Int) : Prop :=
  Touched start stop (dayOf minute) ∧ st.HasBytesIn services minute

theorem reads_of_mem (h : m ∈ st.liveMinutes services start stop) :
    st.Reads services start stop m := by
  obtain ⟨day, htouched, service, hservice, -, i, hi, rfl⟩ := mem_liveMinutes.mp h
  obtain ⟨hlt, hvalue⟩ := of_position hi
  refine ⟨?_, service, hservice, ?_⟩
  · rw [dayOf_mul_add day hlt]
    exact htouched
  · rw [slot, dayOf_mul_add day hlt, slotOf_mul_add day hlt]
    exact hvalue

/-- The minutes that the arrays are asked for span all that have bytes in. -/
theorem reads_spanned (h : st.Reads services start stop m) :
    ∃ a ∈ st.liveMinutes services start stop, ∃ b ∈ st.liveMinutes services start stop,
      a ≤ m ∧ m ≤ b := by
  obtain ⟨htouched, service, hservice, hvalue⟩ := h
  have hlive : (service, dayOf m) ∈ st.live := by
    refine AList.lookup_isSome.mp ?_
    by_contra hnone
    rw [slot, LiveRows.cell, Option.not_isSome_iff_eq_none.mp hnone] at hvalue
    exact absurd hvalue (Int.lt_irrefl 0)
  obtain ⟨first, last, hfirst, hlast, hle, hge⟩ := positions_span (slotOf_lt m) hvalue
  have hm := dayOf_mul_add_slotOf m
  refine ⟨dayOf m * minutesPerDay + first, mem_liveMinutes.mpr ?_,
    dayOf m * minutesPerDay + last, mem_liveMinutes.mpr ?_, by omega, by omega⟩
  · exact ⟨_, htouched, service, hservice, hlive, first, .inl hfirst, rfl⟩
  · exact ⟨_, htouched, service, hservice, hlive, last, .inr hlast, rfl⟩

theorem mem_foldedDays {day : Int} : day ∈ st.foldedDays services start stop ↔
    st.FoldedTraffic services start stop day := by
  simp only [foldedDays, List.mem_map, List.mem_filter, decide_eq_true_eq, Option.any_eq_true,
    FoldedTraffic]
  constructor
  · rintro ⟨⟨service, day⟩, ⟨-, hfirst, hlast, hservice, row, hrow, htotal⟩, rfl⟩
    exact ⟨hfirst, hlast, service, hservice, row, hrow, htotal⟩
  · rintro ⟨hfirst, hlast, service, hservice, row, hrow, htotal⟩
    refine ⟨(service, day), ⟨?_, hfirst, hlast, hservice, row, hrow, htotal⟩, rfl⟩
    exact AList.mem_keys.mp (AList.lookup_isSome.mp (by rw [hrow]; rfl))

theorem foldedTraffic_of_mem (h : m ∈ st.foldedMinutes services start stop) :
    st.FoldedTraffic services start stop (dayOf m) := by
  rw [← mem_foldedDays]
  unfold foldedMinutes at h
  split at h
  · rename_i earliest latest hmin hmax
    rcases List.mem_pair.mp h with rfl | rfl
    · have hday : dayOf (earliest * minutesPerDay) = earliest := by
        simp only [dayOf, minutesPerDay]
        omega
      rw [hday]
      exact List.min?_mem hmin
    · have hday : dayOf ((latest + 1) * minutesPerDay - 1) = latest := by
        simp only [dayOf, minutesPerDay]
        omega
      rw [hday]
      exact List.max?_mem hmax
  · cases h

theorem foldedMinutes_ne_nil {day : Int} (h : st.FoldedTraffic services start stop day) :
    st.foldedMinutes services start stop ≠ [] := by
  have hne := List.ne_nil_of_mem (mem_foldedDays.mpr h)
  obtain ⟨earliest, hmin⟩ := Option.isSome_iff_exists.mp (List.isSome_min?_of_ne_nil hne)
  obtain ⟨latest, hmax⟩ := Option.isSome_iff_exists.mp (List.isSome_max?_of_ne_nil hne)
  rw [foldedMinutes, hmin, hmax]
  exact List.cons_ne_nil _ _

/-- A folded day that is read lies outside a window whose days are not folded. -/
theorem not_inWindow_of_folded (hunfolded : st.Unfolded services start stop)
    (h : st.FoldedTraffic services start stop (dayOf m)) : ¬InWindow start stop m := by
  rintro ⟨second, hstart, hstop, rfl⟩
  obtain ⟨-, -, service, hservice, row, hrow, -⟩ := h
  have hday : second / secsPerDay = dayOf (second / 60) := by
    simp only [secsPerDay, dayOf, minutesPerDay]
    omega
  refine hunfolded service hservice second hstart hstop (AList.lookup_isSome.mp ?_)
  rw [hday, hrow]
  rfl

/-! ## The span of what is read -/

theorem coveredSpan_eq : st.coveredSpan services start stop =
    extent (st.foldedMinutes services start stop ++ st.liveMinutes services start stop) := by
  rw [coveredSpan]
  split
  · rename_i hnil
    obtain rfl := List.isEmpty_iff.mp hnil
    simp [foldedMinutes, foldedDays, liveMinutes, touchedDays, liveDays, extent]
  · rfl

/-- The span is that of the minutes with bytes in of the days that are read, and of the folded
ones. -/
theorem isExtent_coveredSpan :
    IsExtent {m | m ∈ st.foldedMinutes services start stop ∨ st.Reads services start stop m}
      (st.coveredSpan services start stop) := by
  rw [coveredSpan_eq]
  refine (Extent.isExtent_extent _).of_spanned (fun m hm => ?_) fun m hm => ?_
  · exact (List.mem_append.mp hm).imp_right reads_of_mem
  · obtain hm | hm := hm
    · exact ⟨m, List.mem_append_left _ hm, m, List.mem_append_left _ hm, le_rfl, le_rfl⟩
    · obtain ⟨a, ha, b, hb, hle, hge⟩ := reads_spanned hm
      exact ⟨a, List.mem_append_right _ ha, b, List.mem_append_right _ hb, hle, hge⟩

/-- Where no day of the window is folded, the span is that of its traffic just when nothing is read
from outside the window, and the first and the last minute with traffic have bytes in. -/
theorem coveredSpan_iff (hunfolded : st.Unfolded services start stop) :
    IsExtent (st.traffic services start stop) (st.coveredSpan services start stop) ↔
      (∀ m, Touched start stop (dayOf m) → st.HasBytesIn services m → InWindow start stop m) ∧
      (∀ day, ¬st.FoldedTraffic services start stop day) ∧
      ∀ m, IsLeast (st.traffic services start stop) m ∨
        IsGreatest (st.traffic services start stop) m → st.HasBytesIn services m := by
  have hfin : (st.traffic services start stop).Finite :=
    finite_inWindow.subset fun m hm => hm.1
  rw [isExtent_coveredSpan.iff {m | InWindow start stop m} hfin (fun m hm => hm.1)]
  · constructor
    · rintro ⟨hsub, hends⟩
      have hfolded (day : Int) : ¬st.FoldedTraffic services start stop day := fun h => by
        obtain ⟨m, hm⟩ := List.exists_mem_of_ne_nil _ (foldedMinutes_ne_nil h)
        exact not_inWindow_of_folded hunfolded (foldedTraffic_of_mem hm) (hsub (.inl hm))
      refine ⟨fun m htouched hbytes => hsub (.inr ⟨htouched, hbytes⟩), hfolded, fun m hm => ?_⟩
      obtain hm | hm := hends m hm
      · exact absurd (foldedTraffic_of_mem hm) (hfolded _)
      · exact hm.2
    · rintro ⟨hsub, hfolded, hends⟩
      refine ⟨fun m hm => ?_, fun m hm => .inr ⟨?_, hends m hm⟩⟩
      · obtain hm | hm := hm
        · exact absurd (foldedTraffic_of_mem hm) (hfolded _)
        · exact hsub m hm.1 hm.2
      · exact touched_of_inWindow (hm.elim (·.1.1) (·.1.1))
  · rintro m (hm | hm) hwindow
    · exact absurd hwindow (not_inWindow_of_folded hunfolded (foldedTraffic_of_mem hm))
    · obtain ⟨-, service, hservice, hvalue⟩ := hm
      exact ⟨hwindow, service, hservice, .bytesIn, by decide, hvalue⟩

end UsageStore

/-! Ten minutes into the first day a service sent its only byte. -/

/-- Blobs that are not compressed. -/
@[reducible] def plainBlobs : BlobCodec where
  Blob := List Int
  encodeBlob := id
  decodeBlob values := .ok values
  decode_encode _ := rfl

def download : @UsageStore plainBlobs := @UsageStore.mk plainBlobs ∅
  (AList.insert (1, 0) (fun k i => if k = .bytesOut ∧ i = 10 then 1 else 0) ∅) ∅

theorem slot_download {m : Int} {k : Slots} : 0 < @UsageStore.slot plainBlobs download 1 m k ↔
    m = 10 ∧ k = .bytesOut := by
  change 0 < LiveRows.cell (AList.insert (1, 0) _ ∅) (1, dayOf m) k (slotOf m) ↔ _
  rw [LiveRows.cell, Map.lookup_insert_ite]
  have hm : dayOf m = 0 ∧ slotOf m = 10 ↔ m = 10 := by
    simp only [dayOf, slotOf, minutesPerDay]
    omega
  rw [← hm]
  by_cases hday : dayOf m = 0
  · rw [if_pos (congrArg _ hday), Option.getD_some]
    split
    · rename_i h
      exact iff_of_true Int.one_pos ⟨⟨hday, h.2⟩, h.1⟩
    · rename_i h
      exact iff_of_false (Int.lt_irrefl 0) fun hdownload => h ⟨hdownload.2, hdownload.1.2⟩
  · rw [if_neg fun h => hday (Prod.mk.inj h).2, AList.lookup_empty]
    exact iff_of_false (Int.lt_irrefl 0) fun hdownload => hday hdownload.1.1

theorem coveredSpan_download : ¬IsExtent (@UsageStore.traffic plainBlobs download [1] 0 86400)
    (@UsageStore.coveredSpan plainBlobs download [1] 0 86400) := by
  rw [@UsageStore.coveredSpan_iff plainBlobs download [1] 0 86400 fun _ _ _ _ _ =>
    AList.notMem_empty _]
  rintro ⟨-, -, hends⟩
  have htraffic : @UsageStore.traffic plainBlobs download [1] 0 86400 = {10} := by
    refine Set.ext fun m => ⟨?_, ?_⟩
    · rintro ⟨-, service, hservice, k, -, hvalue⟩
      rw [List.mem_singleton.mp hservice] at hvalue
      exact (slot_download.mp hvalue).1
    · rintro rfl
      exact ⟨⟨600, by decide, by decide, rfl⟩, 1, List.mem_singleton_self 1, .bytesOut, by decide,
        slot_download.mpr ⟨rfl, rfl⟩⟩
  rw [htraffic] at hends
  obtain ⟨service, hservice, hvalue⟩ := hends 10 (.inl isLeast_singleton)
  rw [List.mem_singleton.mp hservice] at hvalue
  cases (slot_download.mp hvalue).2

end TunnelWeaver.Server
