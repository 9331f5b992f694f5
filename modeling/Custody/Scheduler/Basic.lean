/-
# The scheduler

A scheduler keeps at most one arming for each entry, and arms an entry only while the local node is
responsible for it under the installed locality.  An arming starts a timer of its own.  Taking an
arming back does not remove its timer, it stops it; the timer ends by itself when the scheduler is
next at rest.  A timer that is due fires only if the arming it was started for is still there, so an
entry that was cancelled and armed anew does not fire by its old timer.

The clock stands still except when it is advanced.  The journal notes every arming and how it
ended, the latest first; it decides nothing, and what has fired is read from it.
-/

import Custody.Handle
import Custody.Locality
import Custody.Metrics.Basic

namespace Custody

/-- One arming of an entry. -/
structure Arming (K : Type) where
  id : K
  /-- When the entry is to fire. -/
  deadline : Instant
  /-- The number of the arming; no two armings of a scheduler share it. -/
  generation : Nat
deriving DecidableEq, Repr

/-- The timer that an arming started. -/
structure Timer (K : Type) where
  arming : Arming K
  /-- Whether the arming was taken back. -/
  stopped : Bool
deriving DecidableEq, Repr

/-- What happened to an arming. -/
inductive JournalEntry (K : Type) where
  | armed (arming : Arming K)
  | cancelled (arming : Arming K)
  | fired (arming : Arming K) (instant : Instant)
deriving DecidableEq, Repr

/-- What decides whether an entry may be armed. -/
structure Gate (K : Type) where
  /-- The topology of the installed locality, once there is one. -/
  topology : Option TopologyId
  locality : Locality K

/-- Armed entries with their timers, behind a gate. -/
structure Scheduler (K : Type) where
  now : Instant
  armed : List (Arming K)
  timers : List (Timer K)
  gate : Gate K
  /-- The number of armings so far. -/
  generation : Nat
  /-- Whether the scheduler refuses to arm anything. -/
  closed : Bool
  metrics : EntryMetrics
  journal : List (JournalEntry K)

namespace Scheduler

variable {K : Type}

/-- A scheduler without entries that is responsible for every key. -/
def new (now : Instant) : Scheduler K where
  now := now
  armed := []
  timers := []
  gate := ⟨none, .everywhere⟩
  generation := 0
  closed := false
  metrics := {}
  journal := []

/-- A scheduler for the surroundings it is made in: timers need something to run on. -/
def newWithin (canRunTimers : Bool) (now : Instant) : Except Error (Scheduler K) :=
  if canRunTimers then .ok (new now)
  else
    .error (.internal <| "no tokio runtime: there is no reactor running, " ++
      "must be called from the context of a Tokio 1.x runtime")

/-- The number of armed entries. -/
def size (scheduler : Scheduler K) : Nat := scheduler.armed.length

/-- The armed entries. -/
def ids (scheduler : Scheduler K) : List K := scheduler.armed.map (·.id)

/-- The entries that have fired, in order. -/
def fired (scheduler : Scheduler K) : List K :=
  scheduler.journal.reverse.filterMap fun
    | .fired arming _ => some arming.id
    | _ => none

/-- The structural text of a scheduler. -/
def structuralText (scheduler : Scheduler K) : String :=
  Text.record "EntryScheduler"
    [("armed", toString scheduler.size),
      ("topology_id", Text.optional (scheduler.gate.topology.map toString)),
      ("closed", toString scheduler.closed)]

/-- Install a locality.  One from an older topology than the installed one is refused; one from the
same topology is not. -/
def install (scheduler : Scheduler K) (topology : TopologyId) (locality : Locality K) :
    Bool × Scheduler K :=
  if scheduler.gate.topology.any (topology < ·) then (false, scheduler)
  else (true, { scheduler with gate := ⟨some topology, locality⟩ })

/-- Take back some armings and stop their timers. -/
def disarm (scheduler : Scheduler K) (leaves : Arming K → Bool) : Nat × Scheduler K :=
  let leaving := scheduler.armed.filter leaves
  (leaving.length,
    { scheduler with
      armed := scheduler.armed.filter fun arming => !leaves arming
      timers := scheduler.timers.map fun timer =>
        if leaving.any fun arming => arming.generation = timer.arming.generation then
          { timer with stopped := true }
        else timer
      metrics := scheduler.metrics.recordCancelled (UInt64.ofNat leaving.length)
      journal := leaving.reverse.map .cancelled ++ scheduler.journal })

/-- Install a locality and take back every arming that it does not cover.  When the locality is
refused nothing is taken back. -/
def cancelUnowned (scheduler : Scheduler K) (topology : TopologyId) (locality : Locality K) :
    Nat × Scheduler K :=
  match scheduler.install topology locality with
  | (false, scheduler) => (0, scheduler)
  | (true, scheduler) => scheduler.disarm fun arming => !locality.owns arming.id

/-- Take back everything and refuse to arm anything more. -/
def shutdown (scheduler : Scheduler K) : Nat × Scheduler K :=
  { scheduler with closed := true }.disarm fun _ => true

/-- The end of a scheduler: everything is taken back. -/
def drop (scheduler : Scheduler K) : Scheduler K := (scheduler.disarm fun _ => true).2

variable [DecidableEq K]

/-- Whether an entry is armed. -/
def contains (scheduler : Scheduler K) (id : K) : Bool :=
  scheduler.armed.any fun arming => arming.id = id

/-- How often an entry has fired. -/
def fireCount (scheduler : Scheduler K) (id : K) : Nat := scheduler.fired.count id

/-- Arm an entry that is known to be free and owned. -/
def arm (scheduler : Scheduler K) (id : K) (deadline : Instant) : Scheduler K :=
  let arming : Arming K := ⟨id, deadline, scheduler.generation + 1⟩
  { scheduler with
    armed := scheduler.armed ++ [arming]
    timers := scheduler.timers ++ [⟨arming, false⟩]
    generation := scheduler.generation + 1
    metrics := scheduler.metrics.recordArmed
    journal := .armed arming :: scheduler.journal }

/-- Arm an entry, unless the scheduler is shut down, the entry is owned elsewhere, or it is armed
already.  The last two are counted. -/
def schedule (scheduler : Scheduler K) (id : K) (deadline : Instant) : Bool × Scheduler K :=
  if scheduler.closed then (false, scheduler)
  else if !scheduler.gate.locality.owns id then
    (false, { scheduler with metrics := scheduler.metrics.recordNotOwned })
  else if scheduler.contains id then
    (false, { scheduler with metrics := scheduler.metrics.recordDuplicate })
  else (true, scheduler.arm id deadline)

/-- Arm an entry to fire after a delay. -/
def scheduleAfter (scheduler : Scheduler K) (id : K) (delay : Nat) : Bool × Scheduler K :=
  scheduler.schedule id (scheduler.now + delay)

/-- Take back the arming of an entry, if there is one. -/
def cancel (scheduler : Scheduler K) (id : K) : Bool × Scheduler K :=
  if scheduler.contains id then (true, (scheduler.disarm fun arming => arming.id = id).2)
  else (false, scheduler)

/-- A timer comes due: its entry fires if the arming it belongs to is still there. -/
def fire (scheduler : Scheduler K) (timer : Timer K) : Scheduler K :=
  let arming := timer.arming
  if scheduler.armed.contains arming then
    { scheduler with
      armed := scheduler.armed.filter (· ≠ arming)
      metrics := scheduler.metrics.recordFired
      journal := .fired arming scheduler.now :: scheduler.journal }
  else scheduler

/-- Come to rest: the timers that are due fire, and they and the stopped ones end. -/
def fireDue (scheduler : Scheduler K) : Scheduler K :=
  let due := scheduler.timers.filter fun timer =>
    !timer.stopped && timer.arming.deadline ≤ scheduler.now
  let scheduler := due.foldl fire scheduler
  { scheduler with
    timers := scheduler.timers.filter fun timer =>
      !timer.stopped && scheduler.now < timer.arming.deadline }

/-- Move the clock and come to rest. -/
def advance (scheduler : Scheduler K) (elapsed : Nat) : Scheduler K :=
  { scheduler with now := scheduler.now + elapsed }.fireDue

end Scheduler

end Custody
