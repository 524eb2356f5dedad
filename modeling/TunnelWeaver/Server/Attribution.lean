import TunnelWeaver.Server.Metering

/-! Any number of tunnels sharing one metering manager. Each numbers its visitor streams on its own;
the manager knows a stream by that number alone. -/

namespace TunnelWeaver.Server

open Mux (StreamId u32Max)
open Automaton (run Meets run_invariant_of_meets)

/-- One tunnel: the next stream id it opens, and the visitor streams on which bytes may still move,
with the service each was opened for. -/
structure VisitorStreams where
  next : Nat := 2
  live : Map StreamId ServiceId := ∅

structure SharedMeter where
  metering : Metering := {}
  tunnels : Nat → VisitorStreams := fun _ => {}

inductive MeterAction where
  /-- The relay opens a stream for a visitor request. -/
  | openVisitorStream (tunnel : Nat) (service : ServiceId) (now : Int)
  /-- The relay handles `Finished`: the client's half is read to its end. -/
  | finished (tunnel : Nat) (stream : StreamId)
  /-- The relay handles `Reset`: the stream is gone. -/
  | reset (tunnel : Nat) (stream : StreamId)
  /-- Both halves have ended, or the relay reset the stream itself; no event tells the manager. -/
  | closed (tunnel : Nat) (stream : StreamId)
  /-- The mux of a tunnel reports bytes. -/
  | bytes (tunnel : Nat) (stream : StreamId) (now : Int) (bytesIn bytesOut : Nat)

namespace SharedMeter

def setTunnel (t : SharedMeter) (tunnel : Nat) (v : VisitorStreams) : SharedMeter :=
  { t with tunnels := Function.update t.tunnels tunnel v }

def forget (t : SharedMeter) (tunnel : Nat) (stream : StreamId) : SharedMeter :=
  t.setTunnel tunnel
    { t.tunnels tunnel with live := (t.tunnels tunnel).live.erase stream }

def step (t : SharedMeter) : MeterAction → Option SharedMeter
  | .openVisitorStream tunnel service now =>
    let v := t.tunnels tunnel
    if u32Max < v.next + 2 then none
    else some { t.setTunnel tunnel ⟨v.next + 2, v.live.insert v.next service⟩ with
      metering := (t.metering.registerStream v.next service).recordRequest service now }
  | .finished _ stream => some { t with metering := t.metering.unregisterStream stream }
  | .reset tunnel stream =>
    some { t.forget tunnel stream with metering := t.metering.unregisterStream stream }
  | .closed tunnel stream => some (t.forget tunnel stream)
  | .bytes _ stream now bytesIn bytesOut =>
    some { t with metering := t.metering.tunnelBytes stream now bytesIn bytesOut }

/-- No tunnel but `tunnel` has a live stream of that number. -/
def Unshared (t : SharedMeter) (tunnel : Nat) (stream : StreamId) : Prop :=
  ∀ other, other ≠ tunnel → (t.tunnels other).live.lookup stream = none

/-- The number a stream is registered under is free on every other tunnel, unless it is live there
for the same service; a number is unregistered only when no live stream has it. -/
def Distinct (t : SharedMeter) : MeterAction → Prop
  | .openVisitorStream tunnel service _ => ∀ other s, other ≠ tunnel →
    (t.tunnels other).live.lookup (t.tunnels tunnel).next = some s → s = service
  | .finished tunnel stream =>
    t.Unshared tunnel stream ∧ (t.tunnels tunnel).live.lookup stream = none
  | .reset tunnel stream => t.Unshared tunnel stream
  | .closed .. | .bytes .. => True

/-- Every live stream is in the table under its own service. -/
def Attributed (t : SharedMeter) : Prop :=
  ∀ tunnel stream s, (t.tunnels tunnel).live.lookup stream = some s →
    t.metering.streams.lookup stream = some s ∧ stream < (t.tunnels tunnel).next

variable {t t' : SharedMeter} {tunnel : Nat} {stream : StreamId} {s : ServiceId}

theorem setTunnel_tunnels (v : VisitorStreams) (other : Nat) :
    (t.setTunnel tunnel v).tunnels other = if other = tunnel then v else t.tunnels other :=
  Function.update_apply ..

/-- A stream live after a tunnel forgot one was live before, and is another one. -/
theorem live_of_forget {other : Nat} {i : StreamId}
    (h : ((t.forget tunnel stream).tunnels other).live.lookup i = some s) :
    (t.tunnels other).live.lookup i = some s ∧ (other = tunnel → i ≠ stream) ∧
      ((t.forget tunnel stream).tunnels other).next = (t.tunnels other).next := by
  unfold forget at h ⊢
  rw [setTunnel_tunnels] at h ⊢
  split at h
  · rename_i heq
    subst heq
    rw [Map.lookup_erase_ite] at h
    split at h
    · cases h
    · rename_i hne
      exact ⟨h, fun _ => hne, by rw [if_pos rfl]⟩
  · rename_i hne
    exact ⟨h, fun heq => absurd heq hne, by rw [if_neg hne]⟩

theorem Attributed.openVisitorStream (I : t.Attributed) {now : Int}
    (hg : t.Distinct (.openVisitorStream tunnel s now))
    (H : t.step (.openVisitorStream tunnel s now) = some t') : t'.Attributed := by
  simp only [step] at H
  split at H
  · cases H
  · cases H
    intro other i s' h
    simp only [setTunnel_tunnels] at h
    simp only [setTunnel_tunnels, Metering.recordRequest, Metering.record_streams,
      Metering.registerStream, Map.lookup_insert_ite]
    by_cases ho : other = tunnel
    · subst ho
      rw [if_pos rfl] at h ⊢
      simp only [Map.lookup_insert_ite] at h
      split at h
      · rename_i heq
        cases h
        exact ⟨by rw [if_pos heq], by rw [heq]; exact Nat.lt_add_of_pos_right (by decide)⟩
      · rename_i hne
        obtain ⟨hs, hlt⟩ := I _ _ _ h
        exact ⟨by rw [if_neg hne, hs], Nat.lt_add_right 2 hlt⟩
    · rw [if_neg ho] at h ⊢
      obtain ⟨hs, hlt⟩ := I _ _ _ h
      refine ⟨?_, hlt⟩
      split
      · rename_i heq
        subst heq
        rw [hg other s' ho h]
      · exact hs

theorem Attributed.step (I : t.Attributed) {a : MeterAction} (hg : t.Distinct a)
    (H : t.step a = some t') : t'.Attributed := by
  cases a with
  | openVisitorStream tunnel s now => exact I.openVisitorStream hg H
  | finished tunnel stream =>
    cases H
    intro other i s h
    obtain ⟨hs, hlt⟩ := I _ _ _ h
    refine ⟨?_, hlt⟩
    rw [Metering.unregisterStream, Map.lookup_erase_ite, if_neg, hs]
    rintro rfl
    by_cases ho : other = tunnel
    · rw [ho, hg.2] at h
      cases h
    · rw [hg.1 other ho] at h
      cases h
  | reset tunnel stream =>
    cases H
    intro other i s h
    obtain ⟨hl, hne, hnext⟩ := live_of_forget h
    obtain ⟨hs, hlt⟩ := I _ _ _ hl
    refine ⟨?_, hnext ▸ hlt⟩
    rw [Metering.unregisterStream, Map.lookup_erase_ite, if_neg, hs]
    rintro rfl
    by_cases ho : other = tunnel
    · exact hne ho rfl
    · rw [hg other ho] at hl
      cases hl
  | closed tunnel stream =>
    cases H
    intro other i s h
    obtain ⟨h, _, hnext⟩ := live_of_forget h
    rw [hnext]
    exact I _ _ _ h
  | bytes tunnel stream now bytesIn bytesOut =>
    cases H
    intro other i s h
    rw [Metering.tunnelBytes_streams]
    exact I _ _ _ h

/-- In every run that keeps the numbers of live streams of different services apart, a report on a
live stream is added to the bucket of its service, and to no other. -/
theorem bytes_attributed {actions : List MeterAction} (H : run step {} actions = some t)
    (hm : Meets step Distinct {} actions) (tunnel : Nat) (stream : StreamId)
    (hl : (t.tunnels tunnel).live.lookup stream = some s) (now : Int) (bytesIn bytesOut : Nat)
    (key : ServiceId × Int) :
    (t.metering.tunnelBytes stream now bytesIn bytesOut).buckets.lookup key =
      if key = (s, minuteOf now) then
        some (((t.metering.buckets.lookup key).getD {}).addTunnel bytesIn bytesOut)
      else t.metering.buckets.lookup key := by
  have I : t.Attributed := run_invariant_of_meets (fun I hg H => I.step hg H) hm (fun _ _ _ h => by simp at h) H
  rw [Metering.tunnelBytes, (I _ _ _ hl).1]
  simp only [Metering.record, Map.lookup_insert_ite]
  split
  · rename_i heq
    rw [heq]
  · rfl

theorem bytes_attributed_alone : ∃ t,
    run step {} [.openVisitorStream 0 1 0, .openVisitorStream 0 7 0] = some t ∧
    (t.metering.tunnelBytes 2 0 10 0).buckets.lookup (1, 0) =
      some { requests := 1, tunnelIn := 10 } := by
  have hm : Meets step Distinct {} [.openVisitorStream 0 1 0, .openVisitorStream 0 7 0] := by
    refine ⟨fun _ _ _ h => by simp at h, fun t ht => ⟨fun other _ ho h => ?_, fun _ _ => trivial⟩⟩
    cases ht
    rw [show SharedMeter.tunnels _ other = {} from Function.update_of_ne ho ..] at h
    simp at h
  refine ⟨_, rfl, ?_⟩
  exact bytes_attributed rfl hm 0 2 rfl 0 10 0 (1, 0)

/-- Two tunnels open their first stream: the bytes of the first are counted for the service of the
second. -/
theorem bytes_misattributed : ∃ t,
    run step {} [.openVisitorStream 0 1 0, .openVisitorStream 1 7 0] = some t ∧
    (t.tunnels 0).live.lookup 2 = some 1 ∧
    (t.metering.tunnelBytes 2 0 10 0).buckets.lookup (1, 0) = some { requests := 1 } ∧
    (t.metering.tunnelBytes 2 0 10 0).buckets.lookup (7, 0) =
      some { requests := 1, tunnelIn := 10 } :=
  ⟨_, rfl, rfl, rfl, rfl⟩
end SharedMeter

end TunnelWeaver.Server
