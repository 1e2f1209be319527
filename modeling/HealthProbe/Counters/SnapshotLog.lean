import HealthProbe.Counters.Basic
import HealthProbe.Json.Writer
import HealthProbe.Log
import HealthProbe.Time.Stamp

/-! # The log of snapshots

The counters are logged at every multiple of an interval until a cancellation, and once more at the
cancellation. While nothing has been counted nothing is logged.
-/
namespace HealthProbe

structure TimedEvent where
  time : Nat
  event : Event
  deriving DecidableEq, Repr

namespace SnapshotLog

structure Ties where
  /-- A snapshot that is due at the instant of the cancellation is still taken. -/
  snapshotFirst : Bool
  /-- Events of the instant of a snapshot are in it. -/
  eventsFirst : Bool
  deriving DecidableEq, Repr

/-- The multiples of an interval, from the one with a number on, that come before a cancellation. -/
def ticksFrom (ties : Ties) (interval cancel : Nat) : Nat → Nat → List Nat
  | 0, _ => []
  | left + 1, k =>
    let t := k * interval
    if t < cancel || (t == cancel && ties.snapshotFirst) then
      t :: ticksFrom ties interval cancel left (k + 1)
    else []

/-- The instants at which the counters are looked at. An interval of zero stands for none. -/
def instants (ties : Ties) (interval cancel : Nat) : List Nat :=
  if interval = 0 then []
  else ticksFrom ties interval cancel (cancel / interval) 1 ++ [cancel]

def isIn (ties : Ties) (instant : Nat) (e : TimedEvent) : Bool :=
  e.time < instant || (e.time == instant && ties.eventsFirst)

def countersAt (ties : Ties) (start : Counters) (events : List TimedEvent) (instant : Nat) :
    Counters :=
  start.recordAll ((events.filter (isIn ties instant)).map TimedEvent.event)

def snapshots (ties : Ties) (start : Counters) (events : List TimedEvent) (interval cancel : Nat) :
    List (Nat × Counters) :=
  ((instants ties interval cancel).map fun t => (t, countersAt ties start events t)).filter
    fun s => !s.2.isEmpty

def row (r : Event × Nat) : Tree :=
  .record [
    ("checker_name", .text r.1.name), ("checker_type", .text r.1.kind), ("count", .nat r.2),
    ("error_code", .text r.1.code), ("status", .text r.1.health.label)]

def line (clock : Nat → Time.Stamp) (time : Nat) (c : Counters) : LogLine :=
  ⟨time, .info, Json.line (.record [
    ("checks", .list (c.listing.map row)), ("timestamp", .text (clock time).textWithOffset),
    ("type", .text "metrics")])⟩

end SnapshotLog
end HealthProbe
