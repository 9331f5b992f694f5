/-
# Sessions with a scheduler

A session is a sequence of commands to one scheduler, which comes to rest after each of them, or of
bursts of commands, after each of which it comes to rest.  A scheduling pass within a session draws
its candidates from a list that is fixed beforehand, and is cancelled at a fixed point of it or not
at all.
-/

import Custody.Scheduler.Pass

namespace Custody

/-- A source whose items are fixed beforehand. -/
structure ItemScript (K : Type) where
  items : List (Item K)
  /-- Whether candidates that the pass has not gained are left out; failures never are. -/
  filtered : Bool
  /-- Why the source refuses to list anything, if it does. -/
  failure : Option String
  /-- Whether the pass is cancelled before it begins. -/
  cancelled : Bool
  /-- The place in the list of the item at which the pass is cancelled. -/
  cancelAt : Option Nat

namespace ItemScript

variable {K : Type}

/-- Whether an item is produced at all. -/
def produces (script : ItemScript K) (gained : SegmentLocality K) : Item K → Bool
  | .ok candidate => !script.filtered || gained.owns candidate.id
  | .error _ => true

/-- What the source answers. -/
def answer (script : ItemScript K) (gained : SegmentLocality K) :
    Except Error (List (Item K)) :=
  match script.failure with
  | some detail => .error (.enumeration detail)
  | none => .ok (script.items.filter (script.produces gained))

/-- The number of items that the pass sees before it is cancelled.  An item that is not produced
cancels nothing. -/
def untilCancelled (script : ItemScript K) (gained : SegmentLocality K) : Option Nat :=
  if script.cancelled then some 0
  else do
    let place ← script.cancelAt
    let item ← script.items[place]?
    if script.produces gained item then
      some ((script.items.take place).countP (script.produces gained))
    else none

end ItemScript

/-- A command to a scheduler. -/
inductive SchedulerCommand (K : Type) where
  | schedule (id : K) (deadline : Instant)
  | scheduleAfter (id : K) (delay : Nat)
  | cancel (id : K)
  | install (topology : TopologyId) (locality : Locality K)
  | cancelUnowned (topology : TopologyId) (locality : Locality K)
  | reconcile (old new : SegmentLocality K) (script : ItemScript K)
  | advance (elapsed : Nat)
  | shutdown
  | drop

/-- What a scheduler answers to a command. -/
inductive SchedulerReply where
  | done
  | verdict (accepted : Bool)
  | disarmed (count : Nat)
  /-- The result of a pass and how often its source was asked. -/
  | pass (result : Except Error Report) (asked : Nat)

namespace Scheduler

variable {K : Type} [DecidableEq K]

/-- Carry out a command without coming to rest. -/
def perform (scheduler : Scheduler K) :
    SchedulerCommand K → SchedulerReply × Scheduler K
  | .schedule id deadline =>
      let (accepted, scheduler) := scheduler.schedule id deadline
      (.verdict accepted, scheduler)
  | .scheduleAfter id delay =>
      let (accepted, scheduler) := scheduler.scheduleAfter id delay
      (.verdict accepted, scheduler)
  | .cancel id =>
      let (accepted, scheduler) := scheduler.cancel id
      (.verdict accepted, scheduler)
  | .install topology locality =>
      let (accepted, scheduler) := scheduler.install topology locality
      (.verdict accepted, scheduler)
  | .cancelUnowned topology locality =>
      let (count, scheduler) := scheduler.cancelUnowned topology locality
      (.disarmed count, scheduler)
  | .reconcile old new script =>
      let gained := new.gainedSince old
      let (result, scheduler) :=
        scheduler.reconcile old new script.answer (script.untilCancelled gained)
      (.pass result (if gained.segments.isEmpty then 0 else 1), scheduler)
  | .advance elapsed => (.done, { scheduler with now := scheduler.now + elapsed })
  | .shutdown =>
      let (count, scheduler) := scheduler.shutdown
      (.disarmed count, scheduler)
  | .drop => (.done, scheduler.drop)

/-- Carry out a command and come to rest. -/
def exec (scheduler : Scheduler K) (command : SchedulerCommand K) :
    SchedulerReply × Scheduler K :=
  let (reply, scheduler) := scheduler.perform command
  (reply, scheduler.fireDue)

/-- The scheduler after a sequence of commands. -/
def run (scheduler : Scheduler K) (commands : List (SchedulerCommand K)) : Scheduler K :=
  commands.foldl (fun scheduler command => (scheduler.exec command).2) scheduler

/-- Carry out a burst of commands and come to rest after the last of them. -/
def burst (scheduler : Scheduler K) (commands : List (SchedulerCommand K)) : Scheduler K :=
  (commands.foldl (fun scheduler command => (scheduler.perform command).2) scheduler).fireDue

/-- The scheduler after a sequence of bursts. -/
def runBursts (scheduler : Scheduler K) (bursts : List (List (SchedulerCommand K))) :
    Scheduler K :=
  bursts.foldl burst scheduler

end Scheduler

end Custody
