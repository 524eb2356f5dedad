import TunnelWeaver.Server.Conservation

/-! Flushing. A slot write is absolute, and is right as long as the slots it replaces are empty:
the documentation of `SlotWrite` counts on nothing else having written them. An observation that
reads the clock before a flush drains its minute and takes the lock after it makes a second bucket
of the minute, and the next flush replaces the slots the first one wrote. -/

namespace TunnelWeaver.Server

open Automaton (run Meets run_invariant_of_meets)

def Act.isFold : Act → Bool
  | .foldDay _ => true
  | _ => false

section
variable [BlobCodec]

namespace Meter
variable {w w' w₀ : Meter} {s : ServiceId} {m : Int} {k : Slots} {a : Act} {l : List Act}

/-- A flush writes its counters into empty slots, for every service that exists; and what is
observed in a minute stays in the range of a slot. -/
def FlushGuard (w : Meter) : Act → Prop
  | .observe o now => ∀ s ∈ o.service w.mem, ∀ k ∈ Slots.all,
    w.observed s (minuteOf now) k + o.amount k < 2 ^ 63
  | .write flight => ∀ d ∈ w.flights[flight]?, ∀ e ∈ d.entries, e.1.1 ∈ w.store.services →
    ∀ k ∈ Slots.all, k ≠ .openMs → w.store.slot e.1.1 e.1.2 k = 0
  | _ => True

instance : Decidable (FlushGuard w a) :=
  match a with
  | .observe .. => inferInstanceAs (Decidable (∀ s ∈ _, _))
  | .write _ => inferInstanceAs (Decidable (∀ d ∈ _, _))
  | .advance _ | .registerStream .. | .unregisterStream _ | .registerService _
  | .unregisterService _ | .tick _ | .drain _ | .fail _ | .foldDay _ | .sweep
  | .deleteService _ => isTrue trivial

theorem FlushGuard.findsEmpty (h : w.FlushGuard a) (hs : s ∈ w.store.services)
    (hk : k ≠ .openMs) : w.FindsEmpty a s m k := by
  rintro flight d rfl hd hkey
  obtain ⟨b, hb⟩ := Option.isSome_iff_exists.mp (AList.lookup_isSome.mpr hkey)
  exact h d hd _ (AList.mem_lookup_iff.mp hb) hs k k.mem_all hk

theorem FlushGuard.fits (h : w.FlushGuard a) (hk : k ≠ .openMs)
    (hbound : w.observed s m k ≤ k.cap) : w.observed s m k + w.reports a s m k ≤ k.cap := by
  have hcap : k.cap = 2 ^ 63 - 1 := by
    cases k <;> first | rfl | exact absurd rfl hk
  cases a with
  | observe o now =>
    simp only [reports, Observation.reported]
    split
    · rename_i hr
      obtain ⟨hs, rfl⟩ := hr
      have := h s hs k k.mem_all
      omega
    · omega
  | _ => cases k <;> first | exact absurd rfl hk | simpa [reports] using hbound

/-- No day is folded, and every counter of a service that exists is accounted for. -/
def Flushes (w : Meter) : Prop :=
  (∀ p, p ∉ w.store.daily) ∧
    ∀ s ∈ w.store.services, ∀ m k, k ≠ .openMs → w.Accounted s m k

theorem Flushes.step (h : w.Flushes) (hfold : a.isFold = false) (hg : w.FlushGuard a)
    (hstep : w.step a = some w') : w'.Flushes := by
  refine ⟨fun p hp => ?_, fun s hs m k hk => ?_⟩
  · rcases daily_of_step hstep hp with hp | rfl
    · exact h.1 p hp
    · cases hfold
  · have hs' := services_of_step hstep hs
    have hacc := h.2 s hs' m k hk
    exact hacc.step hs (fun hp => absurd hp (h.1 _)) (fun _ => h.1 _) (hg.fits hk hacc.bound)
      (hg.findsEmpty hs' hk) hstep

theorem Initial.flushes (h : w.Initial) : w.Flushes := by
  refine ⟨fun p hp => ?_, fun s _ m k _ => h.accounted⟩
  rw [h.daily] at hp
  exact AList.notMem_empty _ hp

theorem Flushes.of_run (h : w₀.Flushes) (hfold : ∀ a ∈ l, a.isFold = false)
    (hm : Meets Meter.step FlushGuard w₀ l) (hrun : run Meter.step w₀ l = some w) :
    w.Flushes := by
  induction l generalizing w₀ with
  | nil =>
    cases hrun
    exact h
  | cons a l ih =>
    obtain ⟨w₁, h₁, hrun⟩ := Automaton.run_cons_eq_some.mp hrun
    exact ih (h.step (hfold a (.head _)) hm.1 h₁) (fun a ha => hfold a (.tail _ ha))
      (hm.2 w₁ h₁) hrun

/-- In every run of observations, ticks and flushes whose writes find their slots empty, nothing
observed is lost or doubled: each counter is in the slot, in memory and in the drained copies. No
write of such a flush lowers a slot. -/
theorem flush_conserves (h : w₀.Initial) (hfold : ∀ a ∈ l, a.isFold = false)
    (hm : Meets Meter.step FlushGuard w₀ l) (hrun : run Meter.step w₀ l = some w) :
    (∀ s ∈ w.store.services, ∀ m k, k ≠ .openMs →
      w.store.slot s m k + w.mem.held s m k + w.flying s m k = w.observed s m k) ∧
    ∀ flight w', w.FlushGuard (.write flight) → w.step (.write flight) = some w' →
      ∀ s ∈ w'.store.services, ∀ m k, k ≠ .openMs →
        w.store.slot s m k ≤ w'.store.slot s m k := by
  have hflush := h.flushes.of_run hfold hm hrun
  refine ⟨fun s hs m k hk => ?_, fun flight w' hg hstep s hs m k hk => ?_⟩
  · have htotal := (hflush.2 s hs m k hk).total
    rwa [UsageStore.folded, AList.lookup_eq_none.mpr (hflush.1 _), add_zero] at htotal
  · have hs' := services_of_step hstep hs
    have hslot := (hflush.step rfl hg hstep).2 s hs m k hk |>.slot
    obtain ⟨v, hv, rfl⟩ := step_eq_some hstep
    obtain ⟨d, hd, rfl⟩ := Option.map_eq_some_iff.mp hv
    rcases w.finish_cases flight d with he | he
    · by_cases hkey : (s, m) ∈ d
      · rw [hg.findsEmpty hs' hk flight d rfl hd hkey]
        exact hslot
      · rw [he]
        change _ ≤ (w.store.writeBatch (slotWrites d)).slot s m k
        rw [UsageStore.slot_writeBatch, if_pos hs', AList.lookup_eq_none.mpr hkey, Option.map_none,
          Option.getD_none]
    · rw [he]

end Meter

end

namespace Sample

/-- One report lands before the flush of its minute. -/
def onTime : List Act :=
  [.observe (.visitorServiceBytes 1 10 20) 0, .advance 60000, .drain 60000, .write 0]

/-- A second report is stamped in the minute and lands after its flush; the next flush is about to
write it. -/
def late : List Act :=
  onTime ++ [.observe (.visitorServiceBytes 1 1 2) 59999, .advance 60000, .drain 120000]

end Sample

open Sample in
theorem flush_conserves_onTime :
    ∃ w, run Meter.step start onTime = some w ∧ w.store.slot 1 0 .bytesIn = 10 ∧
      (∀ s ∈ w.store.services, ∀ m k, k ≠ .openMs →
        w.store.slot s m k + w.mem.held s m k + w.flying s m k = w.observed s m k) := by
  obtain ⟨w, hw, hslot⟩ := (Option.any_eq_true
    (fun w : Meter => decide (w.store.slot 1 0 .bytesIn = 10)) (run Meter.step start onTime)).mp
    (by decide +kernel)
  refine ⟨w, hw, of_decide_eq_true hslot, ?_⟩
  exact (Meter.flush_conserves start_initial (by decide +kernel) (by decide +kernel) hw).1

open Sample in
/-- The late report overwrites the minute: its slot falls from 10 to 1, and 10 bytes are gone. -/
theorem late_report_overwrites :
    start.Initial ∧
    ∃ w w', run Meter.step start late = some w ∧ w.step (.write 0) = some w' ∧
      1 ∈ w'.store.services ∧ w'.store.slot 1 0 .bytesIn < w.store.slot 1 0 .bytesIn ∧
      w'.store.slot 1 0 .bytesIn + w'.mem.held 1 0 .bytesIn + w'.flying 1 0 .bytesIn ≠
        w'.observed 1 0 .bytesIn := by
  obtain ⟨w, hw, hstep⟩ := (Option.any_eq_true
    (fun w : Meter => (w.step (.write 0)).any fun w' : Meter =>
      decide (1 ∈ w'.store.services) &&
      decide (w'.store.slot 1 0 .bytesIn < w.store.slot 1 0 .bytesIn) &&
      decide (w'.store.slot 1 0 .bytesIn + w'.mem.held 1 0 .bytesIn + w'.flying 1 0 .bytesIn ≠
        w'.observed 1 0 .bytesIn)) (run Meter.step start late)).mp (by decide +kernel)
  obtain ⟨w', hw', h⟩ := (Option.any_eq_true _ _).mp hstep
  simp only [Bool.and_eq_true, decide_eq_true_eq] at h
  exact ⟨start_initial, w, w', hw, hw', h.1.1, h.1.2, h.2⟩

end TunnelWeaver.Server
