import TunnelWeaver.Server.UsageStore

/-! What the slot writes of a flush cover (`slot_writes` of `metering/mod.rs`): every drained
minute once for each metric, at its own offset, and nothing else. -/

namespace TunnelWeaver.Server

/-! ## Lists with one matching part -/

section
variable {α β : Type} [DecidableEq α]

theorem flatMap_of_nodup {l : List α} (hnd : l.Nodup) {f : α → List β} {a : α}
    (hother : ∀ b, b ≠ a → f b = []) : l.flatMap f = if a ∈ l then f a else [] := by
  induction l with
  | nil => rfl
  | cons b l ih =>
    obtain ⟨hb, hnd⟩ := List.nodup_cons.mp hnd
    rw [List.flatMap_cons, ih hnd]
    by_cases heq : b = a
    · subst heq
      rw [if_neg hb, if_pos List.mem_cons_self, List.append_nil]
    · rw [hother b heq, List.nil_append]
      exact if_congr (by simp [Ne.symm heq]) rfl rfl

/-- Of the parts of a list without repetition, one holds the element. -/
theorem flatMap_parts_of_nodup {ll : List (List α)} (hnd : ll.flatten.Nodup) {a : α} {v : β} :
    (ll.flatMap fun l => if a ∈ l then [v] else []) = if a ∈ ll.flatten then [v] else [] := by
  induction ll with
  | nil => rfl
  | cons l ll ih =>
    rw [List.flatten_cons] at hnd
    obtain ⟨-, hnd', hdisj⟩ := List.nodup_append.mp hnd
    rw [List.flatMap_cons, ih hnd', List.flatten_cons]
    by_cases hl : a ∈ l
    · have hnot : a ∉ ll.flatten := fun h => hdisj a hl a h rfl
      simp [hl, hnot]
    · simp [hl]

end

/-! ## The writes that cover a slot -/

variable {drained : Map (ServiceId × Int) Bucket}

/-- One metric of a bucket, as it was counted. -/
def Bucket.counter (b : Bucket) : Slots → Int
  | .bytesIn => b.bytesIn
  | .bytesOut => b.bytesOut
  | .tunnelIn => b.tunnelIn
  | .tunnelOut => b.tunnelOut
  | .requests => b.requests
  | .openMs => b.openMs

/-- The counters fit into the stored integers, and the open time into a minute. -/
structure Bucket.Fits (b : Bucket) : Prop where
  bytesIn : b.bytesIn < 2 ^ 63
  bytesOut : b.bytesOut < 2 ^ 63
  tunnelIn : b.tunnelIn < 2 ^ 63
  tunnelOut : b.tunnelOut < 2 ^ 63
  requests : b.requests < 2 ^ 63
  openMs : 0 ≤ b.openMs ∧ b.openMs ≤ 60000

theorem Bucket.Fits.slotValue_eq {b : Bucket} (h : b.Fits) (k : Slots) :
    slotValue b k = b.counter k := by
  cases k with
  | bytesIn => exact toI64_of_lt h.bytesIn
  | bytesOut => exact toI64_of_lt h.bytesOut
  | tunnelIn => exact toI64_of_lt h.tunnelIn
  | tunnelOut => exact toI64_of_lt h.tunnelOut
  | requests => exact toI64_of_lt h.requests
  | openMs => rfl

theorem drainedMinutes_nodup (service : ServiceId) : (drainedMinutes drained service).Nodup :=
  List.nodup_dedup _

/-- The writes of a run reach the slots of its minutes, and no slot of another. -/
theorem at?_runWrite {service s : ServiceId} {run : List Int} {m : Int} {k : Slots}
    (hrun : run ∈ minuteRuns (drainedMinutes drained service)) :
    SlotWrite.at?
        { service, day := dayOf (run.headD 0), slots := k, firstSlot := slotOf (run.headD 0)
          values := run.map fun m => slotValue ((drained.lookup (service, m)).getD {}) k }
        (s, dayOf m) k (slotOf m) =
      if s = service ∧ m ∈ run then some (slotValue ((drained.lookup (service, m)).getD {}) k)
      else none := by
  obtain ⟨m₀, rest, rfl, -, hget⟩ := mem_minuteRuns hrun
  simp only [SlotWrite.at?, List.headD_cons, List.getElem?_map, Prod.mk.injEq]
  by_cases hm : s = service ∧ m ∈ m₀ :: rest
  · rw [if_pos hm]
    obtain ⟨rfl, hm⟩ := hm
    obtain ⟨j, hj⟩ := List.mem_iff_getElem?.mp hm
    obtain ⟨-, hday, hslot⟩ := hget hj
    rw [if_pos ⟨⟨rfl, hday⟩, trivial, by omega⟩, hslot, Nat.add_sub_cancel_left, hj,
      Option.map_some]
  · rw [if_neg hm]
    split
    · rename_i hc
      obtain ⟨⟨rfl, hday⟩, -, hle⟩ := hc
      rw [Option.map_eq_none_iff]
      by_contra hne
      obtain ⟨m', hj⟩ := Option.ne_none_iff_exists'.mp hne
      obtain ⟨-, hday', hslot⟩ := hget hj
      have heq : m' = m := minute_ext (hday'.trans hday.symm) (by omega)
      exact hm ⟨rfl, heq ▸ List.mem_of_getElem? hj⟩
    · rfl

theorem filterMap_runWrites {service s : ServiceId} {run : List Int} {m : Int} {k : Slots}
    (hrun : run ∈ minuteRuns (drainedMinutes drained service)) :
    (runWrites drained service run).filterMap (·.at? (s, dayOf m) k (slotOf m)) =
      if s = service ∧ m ∈ run then [slotValue ((drained.lookup (service, m)).getD {}) k]
      else [] := by
  have hnd : Slots.all.Nodup := by decide
  rw [runWrites, List.filterMap_map, List.filterMap_eq_flatMap_toList,
    flatMap_of_nodup hnd (a := k), if_pos k.mem_all, Function.comp_apply, at?_runWrite hrun]
  · split <;> rfl
  · intro k' hk
    simp [SlotWrite.at?, Ne.symm hk]

/-- Of all writes of a flush, one covers the slot of a drained minute, and none that of another. -/
theorem filterMap_slotWrites (s : ServiceId) (m : Int) (k : Slots) :
    (slotWrites drained).filterMap (·.at? (s, dayOf m) k (slotOf m)) =
      ((drained.lookup (s, m)).map (slotValue · k)).toList := by
  have hservice : ∀ service, ((minuteRuns (drainedMinutes drained service)).flatMap
        (runWrites drained service)).filterMap (·.at? (s, dayOf m) k (slotOf m)) =
      if s = service then ((drained.lookup (s, m)).map (slotValue · k)).toList else [] := by
    intro service
    rw [List.filterMap_flatMap, List.flatMap_congr fun run hrun => filterMap_runWrites hrun]
    split
    · rename_i heq
      subst heq
      have hflat : (minuteRuns (drainedMinutes drained s)).flatten = drainedMinutes drained s :=
        List.flatten_splitBy _ _
      simp only [true_and]
      have hnd : (minuteRuns (drainedMinutes drained s)).flatten.Nodup := by
        rw [hflat]
        exact drainedMinutes_nodup s
      rw [flatMap_parts_of_nodup hnd, hflat]
      simp only [mem_drainedMinutes, ← AList.lookup_isSome]
      cases drained.lookup (s, m) <;> simp
    · rename_i hne
      simp [hne]
  rw [slotWrites, List.filterMap_flatMap]
  simp only [hservice]
  rw [flatMap_of_nodup (List.nodup_dedup _) (a := s), if_pos rfl]
  · split
    · rfl
    · rename_i hs
      have hnone : drained.lookup (s, m) = none := by
        refine AList.lookup_eq_none.mpr fun hkey => hs ?_
        rw [List.mem_dedup, List.mem_insertionSort, List.mem_map]
        exact ⟨(s, m), AList.mem_keys.mp hkey, rfl⟩
      rw [hnone]
      rfl
  · intro service hne
    rw [if_neg (Ne.symm hne)]

/-! ## The spec of a flush -/

/-- A flush writes every drained minute once for each metric, with the value counted, and covers no
other minute. Storage accepts it, and sets the slots of the drained minutes of the services that
exist and no others. -/
theorem slotWrites_cover_drained [BlobCodec]
    (hfits : ∀ key b, drained.lookup key = some b → b.Fits) :
    (∀ write ∈ slotWrites drained, write.validate = .ok ()) ∧
      (∀ s m k, (slotWrites drained).filterMap (·.at? (s, dayOf m) k (slotOf m)) =
        ((drained.lookup (s, m)).map (·.counter k)).toList) ∧
      ∀ st : UsageStore, ∃ st', st.writeDaySlots (slotWrites drained) = .ok st' ∧
        ∀ s m k, st'.slot s m k =
          if s ∈ st.services then
            ((drained.lookup (s, m)).map (·.counter k)).getD (st.slot s m k)
          else st.slot s m k := by
  have hvalue : ∀ s m k, (drained.lookup (s, m)).map (slotValue · k) =
      (drained.lookup (s, m)).map (·.counter k) := by
    intro s m k
    exact Option.map_congr fun b hb => (hfits _ b hb).slotValue_eq k
  have hopen : ∀ key b, drained.lookup key = some b → 0 ≤ b.openMs ∧ b.openMs ≤ 60000 :=
    fun key b hb => (hfits key b hb).openMs
  refine ⟨fun write => validate_of_mem hopen, fun s m k => ?_, fun st => ?_⟩
  · rw [filterMap_slotWrites, hvalue]
  · refine ⟨_, UsageStore.writeDaySlots_slotWrites hopen, fun s m k => ?_⟩
    rw [UsageStore.slot_writeBatch, hvalue]

/-- Two minutes on either side of midnight, before the epoch and after it. -/
def midnightMinutes : Map (ServiceId × Int) Bucket :=
  (AList.insert (1, -1) { bytesIn := 5, openMs := 60000 } ∅).insert (1, 0) { bytesIn := 7 }

theorem slotWrites_cover_midnight :
    (slotWrites midnightMinutes).filterMap (·.at? (1, -1) .bytesIn 1439) = [5] ∧
      (slotWrites midnightMinutes).filterMap (·.at? (1, 0) .bytesIn 0) = [7] := by
  have hfits : ∀ key b, midnightMinutes.lookup key = some b → b.Fits := by
    intro key b hb
    simp only [midnightMinutes, Map.lookup_insert_ite, AList.lookup_empty] at hb
    split at hb
    · cases hb
      constructor <;> decide
    · split at hb
      · cases hb
        constructor <;> decide
      · cases hb
  have hbefore : midnightMinutes.lookup (1, -1) = some { bytesIn := 5, openMs := 60000 } := by
    simp only [midnightMinutes, Map.lookup_insert_ite]
    rfl
  have hafter : midnightMinutes.lookup (1, 0) = some { bytesIn := 7 } := by
    simp [midnightMinutes]
  have h := (@slotWrites_cover_drained midnightMinutes
    ⟨List Int, id, Except.ok, fun _ => rfl⟩ hfits).2.1
  have hlast := h 1 (-1) .bytesIn
  have hfirst := h 1 0 .bytesIn
  rw [hbefore] at hlast
  rw [hafter] at hfirst
  exact ⟨hlast, hfirst⟩

end TunnelWeaver.Server
