import TunnelWeaver.Server.Meter

/-! Where the metered amounts are. Each step of the metering manager moves amounts between the
in-memory buckets, the drained copies, the slots and the rollup, or adds what it reports; a flush
that writes a slot twice is the one that loses some. -/

namespace TunnelWeaver.Server

open Mux (u64Max)

/-- The counters of a bucket. -/
def Bucket.count (b : Bucket) : Slots → Int
  | .bytesIn => b.bytesIn
  | .bytesOut => b.bytesOut
  | .tunnelIn => b.tunnelIn
  | .tunnelOut => b.tunnelOut
  | .requests => b.requests
  | .openMs => b.openMs

/-- What a slot can hold: an `i64`, or the milliseconds of a minute. -/
def Slots.cap : Slots → Int
  | .openMs => minuteMs
  | _ => 2 ^ 63 - 1

theorem Slots.cap_nonneg (k : Slots) : 0 ≤ k.cap := by
  cases k <;> decide

@[simp] theorem Bucket.count_default (k : Slots) : ({} : Bucket).count k = 0 := by
  cases k <;> rfl

theorem slotValue_eq_count {b : Bucket} {k : Slots} (h : b.count k ≤ k.cap) :
    slotValue b k = b.count k := by
  cases k <;> simp only [Bucket.count, Slots.cap, slotValue] at h ⊢ <;>
    exact toI64_of_lt (by omega)

/-- The count of a minute in a table of buckets. -/
def countIn (buckets : Map (ServiceId × Int) Bucket) (s : ServiceId) (m : Int) (k : Slots) : Int :=
  ((buckets.lookup (s, m)).getD {}).count k

theorem countIn_insert (buckets : Map (ServiceId × Int) Bucket) (key : ServiceId × Int)
    (b : Bucket) (s : ServiceId) (m : Int) (k : Slots) :
    countIn (buckets.insert key b) s m k =
      if (s, m) = key then b.count k else countIn buckets s m k := by
  rw [countIn, Map.lookup_insert_ite]
  split <;> rfl

theorem overlap_nonneg (start stop m : Int) : 0 ≤ overlap start stop m := le_max_left ..

/-- The first segment of `[start, stop)`, up to the end of the minute of `start`, and the rest. -/
theorem overlap_split {start stop : Int} (h : start < stop) (m : Int) :
    overlap start stop m =
      (if m = minuteOf start then min ((minuteOf start + 1) * minuteMs) stop - start else 0) +
        overlap (min ((minuteOf start + 1) * minuteMs) stop) stop m := by
  by_cases hm : m = minuteOf start
  · rw [if_pos hm]
    simp only [overlap, minuteOf, minuteMs] at *
    omega
  · rw [if_neg hm]
    simp only [overlap, minuteOf, minuteMs] at *
    omega

theorem overlap_self (stop m : Int) : overlap stop stop m = 0 := by
  simp only [overlap]
  omega

namespace Metering
variable {mem : Metering} {s service : ServiceId} {m now : Int} {k : Slots}

/-- The count a minute has in memory. -/
def held (mem : Metering) (s : ServiceId) (m : Int) (k : Slots) : Int := countIn mem.buckets s m k

theorem held_record (f : Bucket → Bucket) :
    (mem.record service now f).held s m k =
      if (s, m) = (service, minuteOf now) then
        (f ((mem.buckets.lookup (service, minuteOf now)).getD {})).count k
      else mem.held s m k :=
  countIn_insert ..

/-- A bucket that takes the amounts of an observation gains what is reported for its minute. -/
theorem held_record_amount {o : Observation} {f : Bucket → Bucket}
    (hf : ∀ b : Bucket, b.count k + o.amount k ≤ k.cap → (f b).count k = b.count k + o.amount k)
    (hservice : o.service mem = some service)
    (h : mem.held s m k + o.reported mem now s m k ≤ k.cap) :
    (mem.record service now f).held s m k = mem.held s m k + o.reported mem now s m k := by
  rw [held_record]
  simp only [Observation.reported, hservice, Option.some.injEq] at h ⊢
  by_cases hkey : service = s ∧ m = minuteOf now
  · obtain ⟨rfl, rfl⟩ := hkey
    simp only [true_and, if_true] at h ⊢
    exact hf _ h
  · rw [if_neg hkey, add_zero, if_neg]
    rintro ⟨⟩
    exact hkey ⟨rfl, rfl⟩

theorem satAdd64_eq {a b : Nat} (h : (a : Int) + b ≤ 2 ^ 63 - 1) : (satAdd64 a b : Int) = a + b := by
  simp only [satAdd64, u64Max]
  omega

/-- What an observation reports is what its bucket gains, if it fits. -/
theorem held_apply {o : Observation} (h : mem.held s m k + o.reported mem now s m k ≤ k.cap) :
    (o.apply mem now).held s m k = mem.held s m k + o.reported mem now s m k := by
  cases o with
  | recordRequest service =>
    refine held_record_amount (fun b hb => ?_) rfl h
    cases k <;> simp only [Bucket.count, Observation.amount, Slots.cap] at hb ⊢ <;>
      first | exact satAdd64_eq hb | simp
  | visitorServiceBytes service bytesIn bytesOut =>
    refine held_record_amount (fun b hb => ?_) rfl h
    cases k <;> simp only [Bucket.count, Observation.amount, Slots.cap] at hb ⊢ <;>
      first | exact satAdd64_eq hb | simp
  | tunnelBytes stream bytesIn bytesOut =>
    simp only [Observation.apply, tunnelBytes]
    split
    · rename_i hlook
      simp [Observation.reported, Observation.service, hlook]
    · rename_i service hlook
      refine held_record_amount (fun b hb => ?_) hlook h
      cases k <;> simp only [Bucket.addTunnel, Bucket.count, Observation.amount, Slots.cap] at hb ⊢ <;>
        first | exact satAdd64_eq hb | simp

/-- The open time accruing `[cursor, now)` of a service adds. -/
def segment (service : ServiceId) (cursor now : Int) (s : ServiceId) (m : Int) (k : Slots) : Int :=
  if s = service ∧ k = .openMs then overlap cursor now m else 0

theorem segment_nonneg (service : ServiceId) (cursor now : Int) (s : ServiceId) (m : Int)
    (k : Slots) : 0 ≤ segment service cursor now s m k := by
  unfold segment
  split
  · exact overlap_nonneg ..
  · exact le_rfl

/-- One round of the loop. -/
theorem held_segment (service : ServiceId) (cursor : Int) {seg : Int} (hheld : 0 ≤ mem.held s m k) (hseg : 0 ≤ seg)
    (h : mem.held s m k + (if s = service ∧ k = .openMs ∧ m = minuteOf cursor then seg else 0) ≤
      k.cap) :
    (mem.record service cursor fun b =>
        { b with openMs := max 0 (min (b.openMs + seg) minuteMs) }).held s m k =
      mem.held s m k + if s = service ∧ k = .openMs ∧ m = minuteOf cursor then seg else 0 := by
  rw [held_record]
  by_cases hkey : s = service ∧ m = minuteOf cursor
  · obtain ⟨rfl, rfl⟩ := hkey
    rw [if_pos rfl]
    cases k <;> simp only [Bucket.count, held, countIn, Slots.cap, reduceCtorEq, and_false,
      and_true, if_true, if_false, add_zero] at hheld h ⊢
    omega
  · rw [if_neg (by simpa using hkey), if_neg (by tauto), add_zero]

/-- The loop adds the milliseconds of each minute to the minute, if they fit. -/
theorem held_accrueLoop {rounds : Nat} {cursor : Int}
    (hrounds : (minuteOf now - minuteOf cursor).toNat < rounds) (hheld : 0 ≤ mem.held s m k)
    (h : mem.held s m k + segment service cursor now s m k ≤ k.cap) :
    (accrueLoop service now rounds cursor mem).held s m k =
      mem.held s m k + segment service cursor now s m k := by
  induction rounds generalizing mem cursor with
  | zero => omega
  | succ rounds ih =>
    unfold accrueLoop
    split
    · rename_i hlt
      have hsplit : segment service cursor now s m k =
          (if s = service ∧ k = .openMs ∧ m = minuteOf cursor then
            min ((minuteOf cursor + 1) * minuteMs) now - cursor else 0) +
          segment service (min ((minuteOf cursor + 1) * minuteMs) now) now s m k := by
        simp only [segment]
        by_cases hs : s = service ∧ k = .openMs
        · simp only [hs, true_and, if_true]
          exact overlap_split hlt m
        · rw [if_neg hs, if_neg hs, if_neg (by tauto), add_zero]
      have hseg : 0 ≤ min ((minuteOf cursor + 1) * minuteMs) now - cursor := by
        simp only [minuteOf, minuteMs]
        omega
      have hrest :=
        segment_nonneg service (min ((minuteOf cursor + 1) * minuteMs) now) now s m k
      have hround := held_segment service cursor hheld hseg (by omega)
      have hfirst : 0 ≤ if s = service ∧ k = .openMs ∧ m = minuteOf cursor then
          min ((minuteOf cursor + 1) * minuteMs) now - cursor else 0 := by
        split
        · exact hseg
        · exact le_rfl
      rcases Int.le_total now ((minuteOf cursor + 1) * minuteMs) with hle | hle
      · rw [min_eq_right hle] at hround hsplit ⊢
        have hself : segment service now now s m k = 0 := by simp [segment, overlap_self]
        rw [accrueLoop_self, hround, hsplit, hself, add_zero]
      · rw [min_eq_left hle] at hround hsplit hrest hfirst ⊢
        rw [ih _ (by omega) (by omega), hround, hsplit, add_assoc]
        simp only [minuteOf, minuteMs] at hle hrounds ⊢
        omega
    · rename_i hle
      have : overlap cursor now m = 0 := by
        simp only [overlap]
        omega
      simp [segment, this]

/-- The open time that accruing a service to `now` adds. -/
def accrual (mem : Metering) (service : ServiceId) (now : Int) (s : ServiceId) (m : Int)
    (k : Slots) : Int :=
  if s = service ∧ k = .openMs then mem.opened now s m else 0

theorem opened_nonneg : 0 ≤ mem.opened now s m := by
  unfold opened
  split
  · exact overlap_nonneg ..
  · exact le_rfl

theorem held_accrue (hheld : 0 ≤ mem.held s m k)
    (h : mem.held s m k + mem.accrual service now s m k ≤ k.cap) :
    (mem.accrue service now).held s m k = mem.held s m k + mem.accrual service now s m k := by
  unfold accrue
  cases hlook : mem.registered.lookup service with
  | none =>
    have hnone : mem.accrual service now s m k = 0 := by
      unfold accrual
      split
      · rename_i hs
        rw [opened, hs.1, hlook]
      · rfl
    simp only [hnone, add_zero]
  | some accounted =>
    have hsegment : mem.accrual service now s m k = segment service accounted now s m k := by
      unfold accrual segment
      split
      · rename_i hs
        rw [opened, hs.1, hlook]
      · rfl
    rw [hsegment] at h ⊢
    exact held_accrueLoop (Nat.lt_succ_self _) hheld h

theorem lookup_registered_accrue (service : ServiceId) (now : Int) (s : ServiceId) :
    (mem.accrue service now).registered.lookup s =
      if s = service then (mem.registered.lookup s).map fun _ => now
      else mem.registered.lookup s := by
  unfold accrue
  cases hlook : mem.registered.lookup service with
  | none =>
    dsimp only
    split
    · rename_i hs
      rw [hs, hlook]
      rfl
    · rfl
  | some accounted =>
    simp only [accrueLoop_registered]
    rw [Map.lookup_insert_ite]
    split
    · rename_i hs
      rw [hs, hlook]
      rfl
    · rfl

theorem held_unregisterService (hheld : 0 ≤ mem.held s m k)
    (h : mem.held s m k + mem.accrual service now s m k ≤ k.cap) :
    (mem.unregisterService service now).held s m k =
      mem.held s m k + mem.accrual service now s m k :=
  held_accrue hheld h

/-- Accruing a list of services, each once. -/
theorem held_foldl_accrue {services : List ServiceId} (hnodup : services.Nodup)
    (hheld : 0 ≤ mem.held s m k)
    (h : mem.held s m k + (if s ∈ services ∧ k = .openMs then mem.opened now s m else 0) ≤ k.cap) :
    (services.foldl (fun mem service => mem.accrue service now) mem).held s m k =
      mem.held s m k + if s ∈ services ∧ k = .openMs then mem.opened now s m else 0 := by
  induction services generalizing mem with
  | nil => simp
  | cons service services ih =>
    obtain ⟨hnot, hrest⟩ := List.nodup_cons.mp hnodup
    have hnonneg : 0 ≤ mem.opened now s m := opened_nonneg
    have hcap : mem.held s m k ≤ k.cap := by
      split at h <;> omega
    rw [List.foldl_cons]
    by_cases hs : s = service
    · subst hs
      have hacc : mem.accrual s now s m k = if k = .openMs then mem.opened now s m else 0 := by
        simp [accrual]
      simp only [List.mem_cons_self, true_and] at h ⊢
      rw [← hacc] at h ⊢
      have hhead := held_accrue hheld h
      have hpos : 0 ≤ mem.accrual s now s m k := by
        rw [hacc]
        split <;> omega
      rw [ih hrest (by omega) (by simp only [hnot, false_and, if_false]; omega), hhead]
      simp only [hnot, false_and, if_false, add_zero]
    · have hacc : mem.accrual service now s m k = 0 := by simp [accrual, hs]
      have hhead := held_accrue hheld (by rw [hacc, add_zero]; exact hcap)
      have hopened : (mem.accrue service now).opened now s m = mem.opened now s m := by
        rw [opened, lookup_registered_accrue, if_neg hs, opened]
      simp only [List.mem_cons, hs, false_or] at h ⊢
      rw [hacc, add_zero] at hhead
      rw [ih hrest (by omega) (by rw [hhead, hopened]; exact h), hhead, hopened]

/-- The open time a tick adds. -/
theorem held_tick (hheld : 0 ≤ mem.held s m k)
    (h : mem.held s m k + (if k = .openMs then mem.opened now s m else 0) ≤ k.cap) :
    (mem.tick now).held s m k =
      mem.held s m k + if k = .openMs then mem.opened now s m else 0 := by
  have hopened : (if s ∈ mem.registered.keys ∧ k = .openMs then mem.opened now s m else 0) =
      if k = .openMs then mem.opened now s m else 0 := by
    by_cases hs : s ∈ mem.registered.keys
    · simp only [hs, true_and]
    · have : mem.opened now s m = 0 := by
        rw [opened, AList.lookup_eq_none.mpr hs]
      simp [this]
  rw [← hopened] at h ⊢
  exact held_foldl_accrue mem.registered.keys_nodup hheld h

/-- A flush takes a bucket whole or leaves it. -/
theorem held_drain (now : Int) :
    (mem.drain now).held s m k = 0 ∧ countIn (mem.drained now) s m k = mem.held s m k ∨
      (mem.drain now).held s m k = mem.held s m k ∧ countIn (mem.drained now) s m k = 0 := by
  simp only [held, drain, drained, countIn, Map.lookup_filterMap]
  cases mem.buckets.lookup (s, m) with
  | none => simp
  | some b =>
    by_cases hm : m < minuteOf now
    · exact .inl (by simp [hm])
    · exact .inr (by simp [hm])

theorem held_putBack {p : ServiceId × Int} {b : Bucket} (hheld : 0 ≤ mem.held s m k)
    (hb : 0 ≤ b.count k)
    (h : mem.held s m k + (if (s, m) = p then b.count k else 0) ≤ k.cap) :
    (mem.putBack p b).held s m k =
      mem.held s m k + if (s, m) = p then b.count k else 0 := by
  rw [held, putBack, countIn_insert]
  split
  · rename_i hkey
    subst hkey
    rw [if_pos rfl] at h
    cases k <;> simp only [held, countIn, Bucket.count, Slots.cap] at hheld hb h ⊢ <;>
      first | exact satAdd64_eq h | omega
  · rw [add_zero, held]

theorem held_foldl_putBack {l : List (Sigma fun _ : ServiceId × Int => Bucket)} (hnodup : l.NodupKeys)
    (hheld : 0 ≤ mem.held s m k) (hb : 0 ≤ ((l.dlookup (s, m)).getD {}).count k)
    (h : mem.held s m k + ((l.dlookup (s, m)).getD {}).count k ≤ k.cap) :
    (l.foldl (fun mem e => mem.putBack e.1 e.2) mem).held s m k =
      mem.held s m k + ((l.dlookup (s, m)).getD {}).count k := by
  induction l generalizing mem with
  | nil => simp
  | cons e l ih =>
    obtain ⟨key, b⟩ := e
    obtain ⟨hnot, hrest⟩ := List.nodupKeys_cons.mp hnodup
    rw [List.foldl_cons]
    dsimp only
    by_cases hkey : (s, m) = key
    · subst hkey
      have hnone : l.dlookup (s, m) = none := List.dlookup_eq_none.mpr hnot
      rw [List.dlookup_cons_eq, Option.getD_some] at hb h ⊢
      have hhead := held_putBack (p := (s, m)) hheld hb (by rw [if_pos rfl]; exact h)
      rw [if_pos rfl] at hhead
      rw [ih hrest (by omega) (by simp [hnone]) (by simp [hnone]; omega), hhead, hnone]
      simp
    · have hcons : List.dlookup (s, m) (⟨key, b⟩ :: l) = l.dlookup (s, m) :=
        List.dlookup_cons_ne l (⟨key, b⟩ : Sigma fun _ : ServiceId × Int => Bucket) hkey
      rw [hcons] at hb h ⊢
      have hhead : (mem.putBack key b).held s m k = mem.held s m k := by
        rw [held, putBack, countIn_insert, if_neg hkey, held]
      rw [ih hrest (by omega) hb (by omega), hhead]

/-- Putting drained buckets back restores their counts. -/
theorem held_restore {d : Map (ServiceId × Int) Bucket} (hheld : 0 ≤ mem.held s m k)
    (hb : 0 ≤ countIn d s m k) (h : mem.held s m k + countIn d s m k ≤ k.cap) :
    (mem.restore d).held s m k = mem.held s m k + countIn d s m k :=
  held_foldl_putBack d.nodupKeys hheld hb h

end Metering

theorem sum_map_eraseIdx {α : Type} (f : α → Int) {l : List α} {i : Nat} {a : α}
    (h : l[i]? = some a) : ((l.eraseIdx i).map f).sum + f a = (l.map f).sum := by
  induction l generalizing i with
  | nil => simp at h
  | cons b l ih =>
    cases i with
    | zero =>
      obtain rfl : b = a := by simpa using h
      simp [add_comm]
    | succ i =>
      have := ih (by simpa using h)
      simp only [List.eraseIdx_cons_succ, List.map_cons, List.sum_cons]
      omega

section
variable [BlobCodec]

namespace Meter
variable {w w' : Meter} {s : ServiceId} {m : Int} {k : Slots} {a : Act}

/-- The drained copies of a minute. -/
def flying (w : Meter) (s : ServiceId) (m : Int) (k : Slots) : Int :=
  (w.flights.map fun d => countIn d s m k).sum

/-- Everything reported for a minute is in its slot, in its rollup, in memory or in a drained
copy, and fits into a slot. -/
structure Accounted (w : Meter) (s : ServiceId) (m : Int) (k : Slots) : Prop where
  slot : 0 ≤ w.store.slot s m k
  folded : 0 ≤ w.store.folded s m k
  held : 0 ≤ w.mem.held s m k
  flown : ∀ {d}, d ∈ w.flights → 0 ≤ countIn d s m k
  total : w.store.slot s m k + w.store.folded s m k + w.mem.held s m k + w.flying s m k =
    w.observed s m k
  bound : w.observed s m k ≤ k.cap

/-- The manager at its first start: nothing observed, nothing stored. -/
structure Initial (w : Meter) : Prop where
  mem : w.mem = {}
  flights : w.flights = []
  live : w.store.live = ∅
  daily : w.store.daily = ∅
  observed : w.observed = fun _ _ _ => 0
  spans : w.spans = []
  since : w.since = ∅

theorem Initial.accounted (h : w.Initial) : w.Accounted s m k := by
  have hslot : w.store.slot s m k = 0 := by
    rw [UsageStore.slot, LiveRows.cell, h.live]
    rfl
  have hfolded : w.store.folded s m k = 0 := by
    rw [UsageStore.folded, h.daily]
    rfl
  have hheld : w.mem.held s m k = 0 := by
    rw [h.mem]
    exact Bucket.count_default k
  have hflying : w.flying s m k = 0 := by
    rw [flying, h.flights]
    rfl
  constructor
  case slot => rw [hslot]
  case folded => rw [hfolded]
  case held => rw [hheld]
  case flown => simp [h.flights]
  case total => rw [hslot, hfolded, hheld, hflying, h.observed]; rfl
  case bound => rw [h.observed]; exact k.cap_nonneg

/-- The step, if it is the write of a flush, finds the slot of a drained minute empty. -/
def FindsEmpty (w : Meter) (a : Act) (s : ServiceId) (m : Int) (k : Slots) : Prop :=
  ∀ flight d, a = .write flight → w.flights[flight]? = some d → (s, m) ∈ d →
    w.store.slot s m k = 0

theorem reports_nonneg (w : Meter) (a : Act) (s : ServiceId) (m : Int) (k : Slots) :
    0 ≤ w.reports a s m k := by
  unfold reports
  split
  · unfold Observation.reported
    split <;> omega
  · split
    · exact Metering.opened_nonneg
    · exact le_rfl
  · exact Metering.opened_nonneg
  · exact le_rfl

theorem Accounted.flying_nonneg (h : w.Accounted s m k) : 0 ≤ w.flying s m k := by
  refine List.sum_nonneg fun x hx => ?_
  obtain ⟨d, hd, rfl⟩ := List.mem_map.mp hx
  exact h.flown hd

/-- A step that only changes the memory, by what it reports. -/
theorem Accounted.remember (h : w.Accounted s m k) {mem : Metering} {r : Int} (hr : 0 ≤ r)
    (hfit : w.observed s m k + r ≤ k.cap)
    (hheld : w.mem.held s m k + r ≤ k.cap → mem.held s m k = w.mem.held s m k + r)
    (hstore : w'.store = w.store) (hflights : w'.flights = w.flights) (hmem : w'.mem = mem)
    (hobs : w'.observed s m k = w.observed s m k + r) : w'.Accounted s m k := by
  have hfly := h.flying_nonneg
  have hsum := h.total
  have hslot := h.slot
  have hfolded := h.folded
  have hheld₀ := h.held
  have hmem' := hheld (by omega)
  have hflying : w'.flying s m k = w.flying s m k := by rw [flying, hflights, flying]
  constructor
  case slot => rw [hstore]; exact hslot
  case folded => rw [hstore]; exact hfolded
  case held => rw [hmem, hmem']; omega
  case flown => rw [hflights]; exact h.flown
  case total => rw [hstore, hmem, hmem', hflying, hobs]; omega
  case bound => rw [hobs]; exact hfit

/-- A failed write puts the drained copy back into memory. -/
theorem Accounted.restore (h : w.Accounted s m k) {flight : Nat}
    {d : Map (ServiceId × Int) Bucket} (hd : w.flights[flight]? = some d) :
    ({ w with
      flights := w.flights.eraseIdx flight
      mem := w.mem.restore d } : Meter).Accounted s m k := by
  have hsum := sum_map_eraseIdx (fun d => countIn d s m k) hd
  have hdn := h.flown (List.mem_of_getElem? hd)
  have htotal := h.total
  have hslot := h.slot
  have hfolded := h.folded
  have hheld := h.held
  have hbound := h.bound
  have hrest : 0 ≤ ((w.flights.eraseIdx flight).map fun d => countIn d s m k).sum := by
    refine List.sum_nonneg fun x hx => ?_
    obtain ⟨d, hd, rfl⟩ := List.mem_map.mp hx
    exact h.flown (List.mem_of_mem_eraseIdx hd)
  simp only [flying] at htotal
  have hrestore := Metering.held_restore hheld hdn (by omega)
  constructor
  case slot => exact hslot
  case folded => exact hfolded
  case held => rw [hrestore]; omega
  case flown => exact fun hd => h.flown (List.mem_of_mem_eraseIdx hd)
  case total =>
    simp only [flying]
    rw [hrestore]
    omega
  case bound => exact hbound

theorem finish_cases (w : Meter) (flight : Nat) (d : Map (ServiceId × Int) Bucket) :
    w.finish flight d = { w with
        flights := w.flights.eraseIdx flight
        store := w.store.writeBatch (slotWrites d) } ∨
      w.finish flight d = { w with
        flights := w.flights.eraseIdx flight
        mem := w.mem.restore d } := by
  unfold finish
  dsimp only
  split
  · rename_i store hstore
    cases UsageStore.writeDaySlots_eq_ok hstore
    exact .inl rfl
  · exact .inr rfl

/-- A write that finds its slots empty moves the drained copy into them. -/
theorem Accounted.write (h : w.Accounted s m k) (hs : s ∈ w.store.services) {flight : Nat}
    {d : Map (ServiceId × Int) Bucket} (hd : w.flights[flight]? = some d)
    (hempty : (s, m) ∈ d → w.store.slot s m k = 0) : (w.finish flight d).Accounted s m k := by
  rcases w.finish_cases flight d with he | he
  · rw [he]
    have hsum := sum_map_eraseIdx (fun d => countIn d s m k) hd
    have hdn := h.flown (List.mem_of_getElem? hd)
    have htotal := h.total
    have hslot := h.slot
    have hfolded := h.folded
    have hheld := h.held
    have hbound := h.bound
    have hrest : 0 ≤ ((w.flights.eraseIdx flight).map fun d => countIn d s m k).sum := by
      refine List.sum_nonneg fun x hx => ?_
      obtain ⟨d, hd, rfl⟩ := List.mem_map.mp hx
      exact h.flown (List.mem_of_mem_eraseIdx hd)
    simp only [flying] at htotal
    have hwritten : (w.store.writeBatch (slotWrites d)).slot s m k =
        w.store.slot s m k + countIn d s m k := by
      rw [UsageStore.slot_writeBatch, if_pos hs]
      cases hb : d.lookup (s, m) with
      | none => simp [countIn, hb]
      | some b =>
        have hcount : countIn d s m k = b.count k := by rw [countIn, hb]; rfl
        rw [hcount] at hdn hsum ⊢
        rw [hempty (AList.lookup_isSome.mp (by simp [hb])), zero_add, Option.map_some,
          Option.getD_some, slotValue_eq_count (by omega)]
    constructor
    case slot => rw [hwritten]; omega
    case folded => exact hfolded
    case held => exact hheld
    case flown => exact fun hd => h.flown (List.mem_of_mem_eraseIdx hd)
    case total =>
      simp only [flying]
      rw [hwritten]
      change _ + w.store.folded s m k + _ + _ = _
      omega
    case bound => exact hbound
  · rw [he]
    exact h.restore hd

theorem Accounted.drain (h : w.Accounted s m k) (now : Int) :
    ({ w with
      mem := w.mem.drain now
      flights := w.flights ++ [w.mem.drained now] } : Meter).Accounted s m k := by
  have hheld := h.held
  have hsplit : 0 ≤ (w.mem.drain now).held s m k ∧ 0 ≤ countIn (w.mem.drained now) s m k ∧
      (w.mem.drain now).held s m k + countIn (w.mem.drained now) s m k = w.mem.held s m k := by
    rcases @Metering.held_drain w.mem s m k now with ⟨h₁, h₂⟩ | ⟨h₁, h₂⟩ <;> omega
  have htotal := h.total
  constructor
  case slot => exact h.slot
  case folded => exact h.folded
  case held => exact hsplit.1
  case flown =>
    intro d hd
    rcases List.mem_append.mp hd with hd | hd
    · exact h.flown hd
    · rw [List.mem_singleton.mp hd]
      exact hsplit.2.1
  case total =>
    simp only [flying, List.map_append, List.map_cons, List.map_nil, List.sum_append,
      List.sum_singleton] at htotal ⊢
    omega
  case bound => exact h.bound

/-- A fold moves the slots of a day into a rollup row, if there was none. -/
theorem Accounted.foldDay (h : w.Accounted s m k) (hs : s ∈ w.store.services) (day : Int)
    (hapart : (s, dayOf m) ∈ w.store.live → (s, dayOf m) ∉ w.store.daily) :
    ({ w with store := w.store.foldDay day } : Meter).Accounted s m k := by
  have hmove : (w.store.foldDay day).slot s m k + (w.store.foldDay day).folded s m k =
      w.store.slot s m k + w.store.folded s m k := by
    rw [UsageStore.slot_foldDay, UsageStore.folded_foldDay hs]
    by_cases hday : dayOf m = day
    · subst hday
      by_cases hrow : (s, dayOf m) ∈ w.store.live
      · have : w.store.folded s m k = 0 := by
          rw [UsageStore.folded, AList.lookup_eq_none.mpr (hapart hrow)]
        simp [hrow, this]
      · have : w.store.slot s m k = 0 := by
          rw [UsageStore.slot, LiveRows.cell, AList.lookup_eq_none.mpr hrow]
          rfl
        simp [hrow, this]
    · simp [hday]
  have htotal := h.total
  have hslot := h.slot
  have hfolded := h.folded
  constructor
  case slot =>
    rw [UsageStore.slot_foldDay]
    split
    · exact le_rfl
    · exact hslot
  case folded =>
    rw [UsageStore.folded_foldDay hs]
    split
    · exact hslot
    · exact hfolded
  case held => exact h.held
  case flown => exact h.flown
  case total =>
    change _ + _ + w.mem.held s m k + w.flying s m k = _
    rw [hmove]
    exact htotal
  case bound => exact h.bound

/-- A step that leaves the places of a minute alone. -/
theorem Accounted.frame (h : w.Accounted s m k)
    (hslot : w'.store.slot s m k = w.store.slot s m k)
    (hfolded : w'.store.folded s m k = w.store.folded s m k)
    (hmem : w'.mem.buckets = w.mem.buckets) (hflights : w'.flights = w.flights)
    (hobs : w'.observed s m k = w.observed s m k) : w'.Accounted s m k where
  slot := by rw [hslot]; exact h.slot
  folded := by rw [hfolded]; exact h.folded
  held := by rw [Metering.held, hmem]; exact h.held
  flown := by rw [hflights]; exact h.flown
  total := by
    rw [hslot, hfolded, hobs, Metering.held, hmem, flying, hflights]
    exact h.total
  bound := by rw [hobs]; exact h.bound

theorem step_eq_some (h : w.step a = some w') :
    ∃ v, w.next a = some v ∧
      w' = { v with
        observed := fun s m k => w.observed s m k + w.reports a s m k
        spans := w.spansAfter a
        since := w.sinceAfter a } := by
  obtain ⟨v, hv, rfl⟩ := Option.map_eq_some_iff.mp h
  exact ⟨v, hv, rfl⟩

/-- Services are only ever deleted. -/
theorem services_of_step (h : w.step a = some w') (hs : s ∈ w'.store.services) :
    s ∈ w.store.services := by
  obtain ⟨v, hv, rfl⟩ := step_eq_some h
  cases a <;> simp only [next, Option.ite_none_right_eq_some, Option.some.injEq,
    Option.map_eq_some_iff] at hv
  case write flight =>
    obtain ⟨d, -, rfl⟩ := hv
    rcases w.finish_cases flight d with he | he
    · rw [he] at hs
      exact hs
    · rw [he] at hs
      exact hs
  case fail =>
    obtain ⟨d, -, rfl⟩ := hv
    exact hs
  case deleteService service =>
    cases hv
    exact (AList.mem_erase.mp hs).2
  all_goals
    obtain ⟨-, rfl⟩ := hv
    exact hs

/-- Rollup rows come from folding live rows. -/
theorem lookup_daily_of_step {p : ServiceId × Int} {row : UsageDaily} (h : w.step a = some w')
    (hp : w'.store.daily.lookup p = some row) :
    w.store.daily.lookup p = some row ∨ a = .foldDay p.2 ∧
      ∃ cells, w.store.live.lookup p = some cells ∧ row = UsageStore.writeDay cells := by
  obtain ⟨v, hv, rfl⟩ := step_eq_some h
  cases a <;> simp only [next, Option.ite_none_right_eq_some, Option.some.injEq,
    Option.map_eq_some_iff] at hv
  case write flight =>
    obtain ⟨d, -, rfl⟩ := hv
    rcases w.finish_cases flight d with he | he
    · rw [he] at hp
      exact .inl hp
    · rw [he] at hp
      exact .inl hp
  case fail =>
    obtain ⟨d, -, rfl⟩ := hv
    exact .inl hp
  case foldDay day =>
    obtain ⟨-, rfl⟩ := hv
    rcases UsageStore.lookup_daily_of_foldDay hp with hold | ⟨rfl, hlive⟩
    · exact .inl hold
    · exact .inr ⟨rfl, hlive⟩
  case sweep =>
    cases hv
    exact .inl (UsageStore.lookup_of_filter hp)
  case deleteService service =>
    cases hv
    exact .inl (UsageStore.lookup_of_filter hp)
  all_goals
    obtain ⟨-, rfl⟩ := hv
    exact .inl hp

theorem daily_of_step {p : ServiceId × Int} (h : w.step a = some w') (hp : p ∈ w'.store.daily) :
    p ∈ w.store.daily ∨ a = .foldDay p.2 := by
  obtain ⟨row, hrow⟩ := Option.isSome_iff_exists.mp (AList.lookup_isSome.mpr hp)
  rcases lookup_daily_of_step h hrow with hrow | ⟨ha, -⟩
  · exact .inl (AList.lookup_isSome.mp (by rw [hrow]; rfl))
  · exact .inr ha

/-- Live rows are made by flushes, and the live rows of a day do not outlast its fold. -/
theorem live_of_step {p : ServiceId × Int} (h : w.step a = some w') (hp : p ∈ w'.store.live) :
    p ∈ w.store.live ∧ a ≠ .foldDay p.2 ∨
      ∃ flight d m, a = .write flight ∧ w.flights[flight]? = some d ∧ (p.1, m) ∈ d ∧
        dayOf m = p.2 := by
  obtain ⟨v, hv, rfl⟩ := step_eq_some h
  cases a <;> simp only [next, Option.ite_none_right_eq_some, Option.some.injEq,
    Option.map_eq_some_iff] at hv
  case write flight =>
    obtain ⟨d, hd, rfl⟩ := hv
    rcases w.finish_cases flight d with he | he
    · rw [he] at hp
      rcases (UsageStore.mem_live_writeBatch p).mp hp with hp | ⟨-, m, hm, hday⟩
      · exact .inl ⟨hp, by simp⟩
      · exact .inr ⟨flight, d, m, rfl, hd, hm, hday⟩
    · rw [he] at hp
      exact .inl ⟨hp, by simp⟩
  case fail =>
    obtain ⟨d, -, rfl⟩ := hv
    exact .inl ⟨hp, by simp⟩
  case foldDay day =>
    obtain ⟨-, rfl⟩ := hv
    obtain ⟨hp, hne⟩ := UsageStore.mem_live_foldDay.mp hp
    exact .inl ⟨hp, by simpa [eq_comm] using hne⟩
  case deleteService service =>
    cases hv
    exact .inl ⟨UsageStore.mem_live_deleteService hp, by simp⟩
  all_goals
    obtain ⟨-, rfl⟩ := hv
    exact .inl ⟨hp, by simp⟩

/-- No service-day that exists is both live and folded. -/
def Apart (w : Meter) : Prop :=
  ∀ s day, s ∈ w.store.services → (s, day) ∈ w.store.live → (s, day) ∉ w.store.daily

theorem Apart.step (h : w.Apart) (hwrite : ∀ {flight d s m}, a = .write flight →
      w.flights[flight]? = some d → s ∈ w.store.services → (s, m) ∈ d →
      (s, dayOf m) ∉ w.store.daily)
    (hstep : w.step a = some w') : w'.Apart := by
  intro s day hs hlive hdaily
  have hs' := services_of_step hstep hs
  rcases daily_of_step hstep hdaily with hdaily | rfl
  · rcases live_of_step hstep hlive with ⟨hlive, -⟩ | ⟨flight, d, m, rfl, hd, hm, rfl⟩
    · exact h s day hs' hlive hdaily
    · exact hwrite rfl hd hs' hm hdaily
  · rcases live_of_step hstep hlive with ⟨-, hne⟩ | ⟨_, _, _, ha, -⟩
    · exact hne rfl
    · cases ha

/-- The retention window only moves forward. -/
theorem cutoffDay_le_of_step (h : w.step a = some w') : w.cutoffDay ≤ w'.cutoffDay := by
  have hclock : w.clock ≤ w'.clock ∧ w'.retention = w.retention := by
    obtain ⟨v, hv, rfl⟩ := step_eq_some h
    cases a <;> simp only [next, Option.ite_none_right_eq_some, Option.some.injEq,
      Option.map_eq_some_iff] at hv
    case advance ms =>
      cases hv
      exact ⟨by simp, rfl⟩
    case write flight =>
      obtain ⟨d, -, rfl⟩ := hv
      rcases w.finish_cases flight d with he | he <;> exact ⟨by rw [he], by rw [he]⟩
    case fail =>
      obtain ⟨d, -, rfl⟩ := hv
      exact ⟨le_rfl, rfl⟩
    all_goals
      obtain ⟨-, rfl⟩ := hv
      exact ⟨le_rfl, rfl⟩
  simp only [cutoffDay, hclock.2, secsPerDay]
  omega

/-- What is accounted for stays so, for a service that exists and a day inside the retention, by
every step whose reports fit and that finds the slots it writes empty. -/
theorem Accounted.step (h : w.Accounted s m k) (hs : s ∈ w'.store.services)
    (hkept : (s, dayOf m) ∈ w.store.daily → w'.cutoffDay ≤ dayOf m)
    (hapart : (s, dayOf m) ∈ w.store.live → (s, dayOf m) ∉ w.store.daily)
    (hfit : w.observed s m k + w.reports a s m k ≤ k.cap) (hempty : w.FindsEmpty a s m k)
    (hstep : w.step a = some w') : w'.Accounted s m k := by
  have hs' := services_of_step hstep hs
  obtain ⟨v, hv, rfl⟩ := step_eq_some hstep
  have hr := w.reports_nonneg a s m k
  cases a with
  | advance ms =>
    cases hv
    exact h.frame rfl rfl rfl rfl (add_zero _)
  | observe o now =>
    obtain ⟨-, ⟨⟩⟩ := Option.ite_none_right_eq_some.mp hv
    exact h.remember hr hfit Metering.held_apply rfl rfl rfl rfl
  | registerStream stream service =>
    cases hv
    exact h.frame rfl rfl rfl rfl (add_zero _)
  | unregisterStream stream =>
    cases hv
    exact h.frame rfl rfl rfl rfl (add_zero _)
  | registerService service =>
    cases hv
    refine h.frame rfl rfl ?_ rfl (add_zero _)
    simp only [Metering.registerService]
    split <;> rfl
  | unregisterService service =>
    cases hv
    refine h.remember hr hfit (fun hc => ?_) rfl rfl rfl rfl
    have hreports : w.reports (.unregisterService service) s m k =
        w.mem.accrual service w.clock s m k := by
      cases k <;> simp [reports, Metering.accrual]
    rw [hreports] at hc ⊢
    exact Metering.held_unregisterService h.held hc
  | tick now =>
    obtain ⟨-, ⟨⟩⟩ := Option.ite_none_right_eq_some.mp hv
    refine h.remember hr hfit (fun hc => ?_) rfl rfl rfl rfl
    have hreports : w.reports (.tick now) s m k =
        if k = .openMs then w.mem.opened now s m else 0 := by
      cases k <;> simp [reports]
    rw [hreports] at hc ⊢
    exact Metering.held_tick h.held hc
  | drain now =>
    obtain ⟨-, ⟨⟩⟩ := Option.ite_none_right_eq_some.mp hv
    exact (h.drain now).frame rfl rfl rfl rfl (add_zero _)
  | write flight =>
    obtain ⟨d, hd, rfl⟩ := Option.map_eq_some_iff.mp hv
    have hobs : (w.finish flight d).observed = w.observed := by
      rcases w.finish_cases flight d with he | he <;> rw [he]
    refine (h.write hs' hd (hempty flight d rfl hd)).frame rfl rfl rfl rfl ?_
    rw [hobs]
    exact add_zero _
  | fail flight =>
    obtain ⟨d, hd, rfl⟩ := Option.map_eq_some_iff.mp hv
    exact (h.restore hd).frame rfl rfl rfl rfl (add_zero _)
  | foldDay day =>
    obtain ⟨-, ⟨⟩⟩ := Option.ite_none_right_eq_some.mp hv
    exact (h.foldDay hs' day hapart).frame rfl rfl rfl rfl (add_zero _)
  | sweep =>
    cases hv
    exact h.frame rfl (UsageStore.folded_sweep hkept) rfl rfl (add_zero _)
  | deleteService service =>
    cases hv
    have hne : s ≠ service := (AList.mem_erase.mp hs).1
    refine h.frame ?_ ?_ rfl rfl (add_zero _)
    · rw [UsageStore.slot, LiveRows.cell, UsageStore.lookup_live_deleteService hne]
      rfl
    · rw [UsageStore.folded, UsageStore.lookup_daily_deleteService hne]
      rfl

end Meter

end

namespace Sample

/-- Blobs without compression. -/
scoped instance codec : BlobCodec where
  Blob := List Int
  encodeBlob values := values
  decodeBlob blob := .ok blob
  decode_encode _ := rfl

/-- A relay with one service, at its first start. -/
def start : Meter where
  store := { services := AList.singleton 1 ⟨"web", "laptop", "alice"⟩ }

theorem start_initial : start.Initial := ⟨rfl, rfl, rfl, rfl, rfl, rfl, rfl⟩

end Sample

end TunnelWeaver.Server
