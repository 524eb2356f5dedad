import TunnelWeaver.Lib.Automaton
import TunnelWeaver.Server.UsageStore

/-! The metering manager over its store. An observation, a tick and the two halves of a flush
(draining the buckets, then writing them or putting them back) each hold the lock once and may
interleave in any order; the clock reading of an observation, of a tick or of a flush is made
before the lock is taken. -/

namespace TunnelWeaver.Server

open Mux (StreamId)

/-- What the relay and the HTTPS edge report. -/
inductive Observation
  | recordRequest (service : ServiceId)
  | visitorServiceBytes (service : ServiceId) (bytesIn bytesOut : Nat)
  | tunnelBytes (stream : StreamId) (bytesIn bytesOut : Nat)

namespace Observation

/-- The service an observation is attributed to. -/
def service (mem : Metering) : Observation → Option ServiceId
  | recordRequest service => some service
  | visitorServiceBytes service .. => some service
  | tunnelBytes stream .. => mem.streams.lookup stream

def amount : Observation → Slots → Nat
  | recordRequest _, .requests => 1
  | visitorServiceBytes _ bytesIn _, .bytesIn => bytesIn
  | visitorServiceBytes _ _ bytesOut, .bytesOut => bytesOut
  | tunnelBytes _ bytesIn _, .tunnelIn => bytesIn
  | tunnelBytes _ _ bytesOut, .tunnelOut => bytesOut
  | _, _ => 0

/-- What an observation reports for a service, a minute and a metric. -/
def reported (mem : Metering) (now : Int) (o : Observation) (s : ServiceId) (m : Int) (k : Slots) :
    Int :=
  if o.service mem = some s ∧ m = minuteOf now then o.amount k else 0

def apply (mem : Metering) (now : Int) : Observation → Metering
  | recordRequest service => mem.recordRequest service now
  | visitorServiceBytes service bytesIn bytesOut =>
    mem.visitorServiceBytes service now bytesIn bytesOut
  | tunnelBytes stream bytesIn bytesOut => mem.tunnelBytes stream now bytesIn bytesOut

end Observation

namespace Metering

/-- The buckets of complete minutes, which a flush takes out of memory. -/
def drained (m : Metering) (now : Int) : Map (ServiceId × Int) Bucket :=
  Map.filterMap (fun key bucket => if key.2 < minuteOf now then some bucket else none) m.buckets

/-- The buckets a flush leaves in memory. -/
def drain (m : Metering) (now : Int) : Metering :=
  { m with
    buckets :=
      Map.filterMap (fun key bucket => if key.2 < minuteOf now then none else some bucket)
        m.buckets }

/-- Put one drained bucket back. -/
def putBack (m : Metering) (key : ServiceId × Int) (bucket : Bucket) : Metering :=
  let b := (m.buckets.lookup key).getD {}
  { m with
    buckets := m.buckets.insert key {
      bytesIn := satAdd64 b.bytesIn bucket.bytesIn
      bytesOut := satAdd64 b.bytesOut bucket.bytesOut
      tunnelIn := satAdd64 b.tunnelIn bucket.tunnelIn
      tunnelOut := satAdd64 b.tunnelOut bucket.tunnelOut
      requests := satAdd64 b.requests bucket.requests
      openMs := max 0 (min (b.openMs + bucket.openMs) minuteMs) } }

/-- Put the buckets of a failed write back. -/
def restore (m : Metering) (drained : Map (ServiceId × Int) Bucket) : Metering :=
  drained.entries.foldl (fun m e => m.putBack e.1 e.2) m

end Metering

variable [BlobCodec]

/-- A time a service was registered. -/
structure Span where
  service : ServiceId
  start : Int
  stop : Int

/-- The manager, its store, and the drained buckets of the flushes that are writing. The last three
fields are bookkeeping: everything reported so far, by service, minute and metric; the times
services were registered; and since when they are. -/
structure Meter where
  mem : Metering := {}
  store : UsageStore := {}
  flights : List (Map (ServiceId × Int) Bucket) := []
  clock : Int := 0
  retention : Int := 31536000
  observed : ServiceId → Int → Slots → Int := fun _ _ _ => 0
  spans : List Span := []
  since : Map ServiceId Int := ∅

/-- The atomic steps. A `query` ticks at the clock; a run of the metering task at `tick` ticks and
flushes at `tick * 1000`, folds the days before today one by one, and sweeps. -/
inductive Act
  | advance (ms : Nat)
  | observe (o : Observation) (now : Int)
  | registerStream (stream : StreamId) (service : ServiceId)
  | unregisterStream (stream : StreamId)
  | registerService (service : ServiceId)
  | unregisterService (service : ServiceId)
  | tick (now : Int)
  | drain (now : Int)
  | write (flight : Nat)
  | fail (flight : Nat)
  | foldDay (day : Int)
  | sweep
  | deleteService (service : ServiceId)

/-- The milliseconds of `[start, stop)` in a minute. -/
def overlap (start stop minute : Int) : Int :=
  max 0 (min stop ((minute + 1) * minuteMs) - max start (minute * minuteMs))

/-- The open time of a service in a minute that accruing to `now` reports. -/
def Metering.opened (m : Metering) (now : Int) (service : ServiceId) (minute : Int) : Int :=
  match m.registered.lookup service with
  | some accounted => overlap accounted now minute
  | none => 0

namespace Meter

def secsPerDay : Int := 86400

/-- The day in progress. -/
def today (w : Meter) : Int := w.clock / 1000 / secsPerDay

/-- The first day inside the retention. -/
def cutoffDay (w : Meter) : Int := (w.clock / 1000 - w.retention) / secsPerDay

/-- What a step reports for a service, a minute and a metric. -/
def reports (w : Meter) : Act → ServiceId → Int → Slots → Int
  | .observe o now, s, m, k => o.reported w.mem now s m k
  | .unregisterService service, s, m, .openMs =>
    if s = service then w.mem.opened w.clock s m else 0
  | .tick now, s, m, .openMs => w.mem.opened now s m
  | _, _, _, _ => 0

/-- The second half of a flush: the transaction, and putting the buckets back if storage refuses. -/
def finish (w : Meter) (flight : Nat) (drained : Map (ServiceId × Int) Bucket) : Meter :=
  let w := { w with flights := w.flights.eraseIdx flight }
  match w.store.writeDaySlots (slotWrites drained) with
  | .ok store => { w with store }
  | .error _ => { w with mem := w.mem.restore drained }

/-- A step of the code. Clock readings are of the past; days are folded once they are finished. -/
def next (w : Meter) : Act → Option Meter
  | .advance ms => some { w with clock := w.clock + ms }
  | .observe o now => if now ≤ w.clock then some { w with mem := o.apply w.mem now } else none
  | .registerStream stream service =>
    some { w with mem := w.mem.registerStream stream service }
  | .unregisterStream stream => some { w with mem := w.mem.unregisterStream stream }
  | .registerService service =>
    some { w with mem := w.mem.registerService service w.clock }
  | .unregisterService service =>
    some { w with mem := w.mem.unregisterService service w.clock }
  | .tick now => if now ≤ w.clock then some { w with mem := w.mem.tick now } else none
  | .drain now =>
    if now ≤ w.clock then
      some { w with
        mem := w.mem.drain now
        flights := w.flights ++ [w.mem.drained now] }
    else none
  | .write flight => w.flights[flight]?.map (w.finish flight)
  | .fail flight => w.flights[flight]?.map fun drained =>
    { w with
      flights := w.flights.eraseIdx flight
      mem := w.mem.restore drained }
  | .foldDay day => if day < w.today then some { w with store := w.store.foldDay day } else none
  | .sweep => some { w with store := w.store.sweep w.cutoffDay }
  | .deleteService service => some { w with store := w.store.deleteService service }

/-- The registrations that ended. -/
def spansAfter (w : Meter) : Act → List Span
  | .unregisterService service =>
    match w.since.lookup service with
    | some start => ⟨service, start, w.clock⟩ :: w.spans
    | none => w.spans
  | _ => w.spans

/-- The registrations that last. -/
def sinceAfter (w : Meter) : Act → Map ServiceId Int
  | .registerService service =>
    if service ∈ w.since then w.since else w.since.insert service w.clock
  | .unregisterService service => w.since.erase service
  | _ => w.since

/-- A step with its bookkeeping. -/
def step (w : Meter) (a : Act) : Option Meter :=
  (w.next a).map fun w' => { w' with
    observed := fun s m k => w.observed s m k + w.reports a s m k
    spans := w.spansAfter a
    since := w.sinceAfter a }

/-- The second half of a run of the metering task: fold the days before today, then sweep. -/
def maintain (w : Meter) : List Act :=
  (w.store.daysWithLiveRows w.today).map .foldDay ++ [.sweep]

/-- An undisturbed run of the metering task at `tick`, whose flush is stored or fails. -/
def taskRun (w : Meter) (tick : Int) (stored : Bool) : Option Meter :=
  let flight := w.flights.length
  let flush := [.tick (tick * 1000), .drain (tick * 1000),
    if stored then .write flight else .fail flight]
  (Automaton.run step w flush).bind fun w => Automaton.run step w w.maintain

/-- A run of the metering task is one of the interleavings. -/
theorem taskRun_eq_some {w w' : Meter} {tick : Int} {stored : Bool}
    (h : w.taskRun tick stored = some w') : ∃ l, Automaton.run step w l = some w' := by
  obtain ⟨v, hv, h⟩ := Option.bind_eq_some_iff.mp h
  exact ⟨_, Automaton.run_append_eq_some.mpr ⟨v, hv, h⟩⟩

end Meter

end TunnelWeaver.Server
