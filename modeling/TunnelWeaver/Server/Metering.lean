import TunnelWeaver.Lib.Automaton
import TunnelWeaver.Mux.Connection

/-! The in-memory layer of the metering manager (`metering/mod.rs`): traffic counters and open time
by service and minute, and the process-wide table that attributes the byte reports of the mux to
services. Observations carry their time; flushing to the store is not modelled. -/

namespace TunnelWeaver.Server

open Mux (StreamId u64Max)

/-- A `service.id` row id. -/
abbrev ServiceId := Int

def minuteMs : Int := 60000

/-- The minute number (since the Unix epoch) containing `now`. -/
def minuteOf (now : Int) : Int := now / minuteMs

/-- `u64::saturating_add`. -/
def satAdd64 (a b : Nat) : Nat := min (a + b) u64Max

/-- Counters of one service in one minute. -/
structure Bucket where
  bytesIn : Nat := 0
  bytesOut : Nat := 0
  tunnelIn : Nat := 0
  tunnelOut : Nat := 0
  requests : Nat := 0
  openMs : Int := 0
  deriving DecidableEq

/-- What a tunnel-leg report adds to a bucket. -/
def Bucket.addTunnel (bytesIn bytesOut : Nat) (b : Bucket) : Bucket :=
  { b with
    tunnelIn := satAdd64 b.tunnelIn bytesIn
    tunnelOut := satAdd64 b.tunnelOut bytesOut }

structure Metering where
  buckets : Map (ServiceId × Int) Bucket := ∅
  registered : Map ServiceId Int := ∅
  streams : Map StreamId ServiceId := ∅

namespace Metering

/-- Change the bucket of a service in the minute of `now`, creating it if there is none. -/
def record (m : Metering) (service : ServiceId) (now : Int) (f : Bucket → Bucket) : Metering :=
  let key := (service, minuteOf now)
  { m with buckets := m.buckets.insert key (f ((m.buckets.lookup key).getD {})) }

def recordRequest (m : Metering) (service : ServiceId) (now : Int) : Metering :=
  m.record service now fun b => { b with requests := satAdd64 b.requests 1 }

def visitorServiceBytes (m : Metering) (service : ServiceId) (now : Int) (bytesIn bytesOut : Nat) :
    Metering :=
  m.record service now fun b => { b with
    bytesIn := satAdd64 b.bytesIn bytesIn
    bytesOut := satAdd64 b.bytesOut bytesOut }

/-- The owning service of an open stream. -/
def registerStream (m : Metering) (stream : StreamId) (service : ServiceId) : Metering :=
  { m with streams := m.streams.insert stream service }

def unregisterStream (m : Metering) (stream : StreamId) : Metering :=
  { m with streams := m.streams.erase stream }

/-- Tunnel-leg wire bytes the mux moved on a stream. -/
def tunnelBytes (m : Metering) (stream : StreamId) (now : Int) (bytesIn bytesOut : Nat) :
    Metering :=
  match m.streams.lookup stream with
  | none => m
  | some service => m.record service now (Bucket.addTunnel bytesIn bytesOut)

/-! ## Open time -/

/-- Add `[cursor, now)` to the buckets of `service`, one minute a round. -/
def accrueLoop (service : ServiceId) (now : Int) : Nat → Int → Metering → Metering
  | 0, _, m => m
  | rounds + 1, cursor, m =>
    if cursor < now then
      let segEnd := min ((minuteOf cursor + 1) * minuteMs) now
      let seg := segEnd - cursor
      accrueLoop service now rounds segEnd
        (m.record service cursor fun b =>
          { b with openMs := max 0 (min (b.openMs + seg) minuteMs) })
    else m

/-- Bring the open time of a registered service up to `now`. -/
def accrue (m : Metering) (service : ServiceId) (now : Int) : Metering :=
  match m.registered.lookup service with
  | none => m
  | some accounted =>
    let rounds := (minuteOf now - minuteOf accounted).toNat + 1
    let m := accrueLoop service now rounds accounted m
    { m with registered := m.registered.insert service now }

/-- A service already registered keeps its running clock. -/
def registerService (m : Metering) (service : ServiceId) (now : Int) : Metering :=
  match m.registered.lookup service with
  | some _ => m
  | none => { m with registered := m.registered.insert service now }

def unregisterService (m : Metering) (service : ServiceId) (now : Int) : Metering :=
  let m := m.accrue service now
  { m with registered := m.registered.erase service }

def tick (m : Metering) (now : Int) : Metering :=
  m.registered.keys.foldl (fun m service => m.accrue service now) m

/-! ## Frame lemmas -/

variable {m : Metering}

@[simp] theorem record_streams (service : ServiceId) (now : Int) (f : Bucket → Bucket) :
    (m.record service now f).streams = m.streams := rfl

@[simp] theorem record_registered (service : ServiceId) (now : Int) (f : Bucket → Bucket) :
    (m.record service now f).registered = m.registered := rfl

@[simp] theorem tunnelBytes_streams (stream : StreamId) (now : Int) (bytesIn bytesOut : Nat) :
    (m.tunnelBytes stream now bytesIn bytesOut).streams = m.streams := by
  unfold tunnelBytes
  split <;> rfl

@[simp] theorem accrueLoop_registered (service : ServiceId) (now : Int) (rounds : Nat)
    (cursor : Int) : (accrueLoop service now rounds cursor m).registered = m.registered := by
  induction rounds generalizing m cursor with
  | zero => rfl
  | succ rounds ih =>
    unfold accrueLoop
    split
    · exact ih ..
    · rfl

@[simp] theorem accrueLoop_streams (service : ServiceId) (now : Int) (rounds : Nat)
    (cursor : Int) : (accrueLoop service now rounds cursor m).streams = m.streams := by
  induction rounds generalizing m cursor with
  | zero => rfl
  | succ rounds ih =>
    unfold accrueLoop
    split
    · exact ih ..
    · rfl

theorem accrueLoop_self (service : ServiceId) (now : Int) (rounds : Nat) :
    accrueLoop service now rounds now m = m := by
  cases rounds with
  | zero => rfl
  | succ rounds => rw [accrueLoop, if_neg (Int.lt_irrefl now)]

/-- The rounds `accrue` allows are all the loop of the source makes: one for each minute from the
cursor to `now`. -/
theorem accrueLoop_rounds {service : ServiceId} {now cursor : Int} {rounds : Nat}
    (h : (minuteOf now - minuteOf cursor).toNat < rounds) :
    accrueLoop service now (rounds + 1) cursor m = accrueLoop service now rounds cursor m := by
  induction rounds generalizing m cursor with
  | zero => omega
  | succ rounds ih =>
    conv_lhs => unfold accrueLoop
    conv_rhs => unfold accrueLoop
    split
    · rename_i hlt
      dsimp only
      rcases Int.le_total now ((minuteOf cursor + 1) * minuteMs) with hend | hend
      · rw [min_eq_right hend, accrueLoop_self, accrueLoop_self]
      · rw [min_eq_left hend]
        refine ih ?_
        simp only [minuteOf, minuteMs] at hend h ⊢
        omega
    · rfl

end Metering

end TunnelWeaver.Server
