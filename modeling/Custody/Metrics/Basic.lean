/-
# Metrics

What is measured is kept by the part that does the work: the scheduler counts entries, the executor
counts passes, the listener keeps what belongs to transitions.  No number is kept twice, and the
three groups together are all that is exported.  Counters wrap around at 64 bits and levels are
signed and wrap around as well.
-/

import Custody.Metrics.Series

namespace Custody

/-- What the scheduler counts. -/
structure EntryMetrics where
  /-- Entries armed. -/
  armed : UInt64 := 0
  /-- Entries disarmed, one by one or in bulk. -/
  cancelled : UInt64 := 0
  /-- Entries whose deadline came. -/
  fired : UInt64 := 0
  /-- Requests to arm an entry that is owned elsewhere. -/
  notOwned : UInt64 := 0
  /-- Requests to arm an entry that is armed already. -/
  duplicate : UInt64 := 0
  /-- The level of armed entries. -/
  armedNow : Int64 := 0
deriving DecidableEq

namespace EntryMetrics

/-- Take note of an armed entry. -/
def recordArmed (metrics : EntryMetrics) : EntryMetrics :=
  { metrics with armed := metrics.armed + 1, armedNow := metrics.armedNow + 1 }

/-- Take note of entries that were disarmed. -/
def recordCancelled (metrics : EntryMetrics) (count : UInt64) : EntryMetrics :=
  { metrics with
    cancelled := metrics.cancelled + count, armedNow := metrics.armedNow - count.toInt64 }

/-- Take note of an entry that fired. -/
def recordFired (metrics : EntryMetrics) : EntryMetrics :=
  { metrics with fired := metrics.fired + 1, armedNow := metrics.armedNow - 1 }

/-- Take note of a request for an entry owned elsewhere. -/
def recordNotOwned (metrics : EntryMetrics) : EntryMetrics :=
  { metrics with notOwned := metrics.notOwned + 1 }

/-- Take note of a request for an entry that is armed already. -/
def recordDuplicate (metrics : EntryMetrics) : EntryMetrics :=
  { metrics with duplicate := metrics.duplicate + 1 }

end EntryMetrics

/-- What the executor counts. -/
structure PassMetrics where
  /-- Passes accepted. -/
  submitted : UInt64 := 0
  /-- Passes that a newer one, or shutting down, overtook. -/
  superseded : UInt64 := 0
  /-- Passes that failed. -/
  failed : UInt64 := 0
  /-- The level of superseded passes whose work has not returned. -/
  abandoned : Int64 := 0
  /-- Passes that ran to their end. -/
  completed : PassTimer := {}
  /-- Failures by kind. -/
  failures : FailureCounts := {}
deriving DecidableEq

namespace PassMetrics

/-- Take note of an accepted pass. -/
def recordSubmitted (metrics : PassMetrics) : PassMetrics :=
  { metrics with submitted := metrics.submitted + 1 }

/-- Take note of an overtaken pass. -/
def recordSuperseded (metrics : PassMetrics) : PassMetrics :=
  { metrics with superseded := metrics.superseded + 1 }

/-- Take note of the end of a pass that was not overtaken. -/
def recordEnd (metrics : PassMetrics) (success : Bool) (elapsed : Duration) : PassMetrics :=
  if success then { metrics with completed := metrics.completed.record elapsed }
  else { metrics with failed := metrics.failed + 1 }

/-- Take note of a failure by its kind. -/
def recordFailure (metrics : PassMetrics) (kind : String) : PassMetrics :=
  { metrics with failures := metrics.failures.record kind }

/-- Move the level of abandoned passes. -/
def moveAbandoned (metrics : PassMetrics) (change : Int64) : PassMetrics :=
  { metrics with abandoned := metrics.abandoned + change }

end PassMetrics

/-- What the listener keeps. -/
structure TransitionMetrics where
  /-- The level of owned segments. -/
  ownedSegments : Int64 := 0
  /-- Cancellation passes that took longer than they should. -/
  slow : UInt64 := 0
  /-- Cancellation passes. -/
  cancelPasses : PassTimer := {}
deriving DecidableEq

namespace TransitionMetrics

/-- Set the level of owned segments. -/
def setOwned (metrics : TransitionMetrics) (count : Nat) : TransitionMetrics :=
  { metrics with ownedSegments := Int64.ofNat count }

/-- Take note of a cancellation pass; it is slow when it took longer than the threshold. -/
def recordCancelPass (metrics : TransitionMetrics) (elapsed threshold : Duration) :
    TransitionMetrics :=
  { metrics with
    cancelPasses := metrics.cancelPasses.record elapsed
    slow := if threshold.nanos < elapsed.nanos then metrics.slow + 1 else metrics.slow }

end TransitionMetrics

/-- All that is measured. -/
structure Metrics where
  entries : EntryMetrics := {}
  passes : PassMetrics := {}
  transitions : TransitionMetrics := {}
deriving DecidableEq

/-- The counters, in the order in which they are exported. -/
inductive Counter where
  | armed | cancelled | fired | notOwned | duplicate | submitted | superseded | failed | slow
deriving DecidableEq, Repr

namespace Counter

/-- All counters, in the order of their export. -/
def all : List Counter :=
  [armed, cancelled, fired, notOwned, duplicate, submitted, superseded, failed, slow]

/-- The value of a counter. -/
def get (metrics : Metrics) : Counter → UInt64
  | armed => metrics.entries.armed
  | cancelled => metrics.entries.cancelled
  | fired => metrics.entries.fired
  | notOwned => metrics.entries.notOwned
  | duplicate => metrics.entries.duplicate
  | submitted => metrics.passes.submitted
  | superseded => metrics.passes.superseded
  | failed => metrics.passes.failed
  | slow => metrics.transitions.slow

/-- Count further events. -/
def add (metrics : Metrics) (counter : Counter) (amount : UInt64) : Metrics :=
  let value := counter.get metrics + amount
  match counter with
  | armed => { metrics with entries.armed := value }
  | cancelled => { metrics with entries.cancelled := value }
  | fired => { metrics with entries.fired := value }
  | notOwned => { metrics with entries.notOwned := value }
  | duplicate => { metrics with entries.duplicate := value }
  | submitted => { metrics with passes.submitted := value }
  | superseded => { metrics with passes.superseded := value }
  | failed => { metrics with passes.failed := value }
  | slow => { metrics with transitions.slow := value }

end Counter

/-- The levels, in the order in which they are exported. -/
inductive Gauge where
  | armedNow | ownedSegments | abandoned
deriving DecidableEq, Repr

namespace Gauge

/-- All levels, in the order of their export. -/
def all : List Gauge := [armedNow, ownedSegments, abandoned]

/-- The value of a level. -/
def get (metrics : Metrics) : Gauge → Int64
  | armedNow => metrics.entries.armedNow
  | ownedSegments => metrics.transitions.ownedSegments
  | abandoned => metrics.passes.abandoned

/-- Set a level. -/
def set (metrics : Metrics) (value : Int64) : Gauge → Metrics
  | armedNow => { metrics with entries.armedNow := value }
  | ownedSegments => { metrics with transitions.ownedSegments := value }
  | abandoned => { metrics with passes.abandoned := value }

/-- Move a level up, or down by a negative change. -/
def move (metrics : Metrics) (gauge : Gauge) (change : Int64) : Metrics :=
  gauge.set metrics (gauge.get metrics + change)

end Gauge

end Custody
