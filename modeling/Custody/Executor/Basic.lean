/-
# The executor

Scheduling passes run one at a time.  The latest accepted pass is the current one; accepting a pass
cancels the one before it.  A worker takes the passes in the order in which they were accepted.  A
pass that is cancelled before the worker takes it never begins.  When the pass that the worker runs
is cancelled, the worker does not wait for its work to return: it abandons the pass and goes on, and
the work is counted as abandoned until it returns.  Only while the executor is shutting down does
the worker wait, and whoever shuts it down may lose patience and dismiss the worker.

Nothing here knows what the work of a pass is; it is carried along and handed back.  Every step of
the worker is a function of its own, and coming to rest is a fixed order of such steps.
-/

import Custody.Handle
import Custody.Metrics.Basic

namespace Custody

/-- A pass that has not been resolved, or whose work has not returned. -/
structure Pass (Work : Type) where
  id : PassId
  /-- Whether the pass was told to stop. -/
  cancelled : Bool
  /-- The work, as far as it has come. -/
  work : Work
deriving DecidableEq, Repr

namespace Pass

variable {Work : Type}

/-- A pass is told to stop if it is the one with a given number. -/
def tellToStop (id : PassId) (pass : Pass Work) : Pass Work :=
  if pass.id = id then { pass with cancelled := true } else pass

/-- The work of the pass with a given number is replaced by what has become of it. -/
def withWork (id : PassId) (work : Work) (pass : Pass Work) : Pass Work :=
  if pass.id = id then { pass with work := work } else pass

end Pass

/-- What the worker is doing. -/
inductive Worker (Work : Type) where
  /-- It waits for a pass. -/
  | idle
  /-- It runs a pass. -/
  | running (pass : Pass Work)
  /-- It waits for the work of a cancelled pass, because the executor is shutting down. -/
  | draining (pass : Pass Work)
  /-- It is gone and will not come back. -/
  | gone
deriving DecidableEq, Repr

/-- The pass that the worker has not let go of. -/
def Worker.held {Work : Type} : Worker Work → Option (Pass Work)
  | running pass | draining pass => some pass
  | idle | gone => none

/-- What an executor shows of itself. -/
inductive ExecutorState where
  | idle | running | shutDown
deriving DecidableEq, Repr

namespace ExecutorState

/-- The name of a state. -/
def name : ExecutorState → String
  | idle => "Idle"
  | running => "Running"
  | shutDown => "ShutDown"

end ExecutorState

/-- A worker with its queue of passes. -/
structure Executor (Work : Type) where
  name : String
  /-- Whether the executor has stopped accepting passes. -/
  closed : Bool
  worker : Worker Work
  /-- The accepted passes that the worker has not taken, the oldest first. -/
  queue : List (Pass Work)
  /-- The latest accepted pass, until it ends or is cancelled. -/
  current : Option PassId
  /-- Superseded passes whose work has not returned. -/
  abandoned : List (Pass Work)
  /-- Passes of a dismissed worker whose work has not returned. -/
  stranded : List (Pass Work)
  /-- The number of the next submission. -/
  nextId : PassId
  /-- Whether somebody has already waited for the worker to finish. -/
  awaited : Bool
  /-- The passes whose work has begun, in order. -/
  started : List PassId
  /-- The passes that were resolved, in order, with their outcomes. -/
  resolved : List (PassId × Outcome)
  metrics : PassMetrics

namespace Executor

variable {Work : Type}

/-- An executor without passes. -/
def new (name : String) : Executor Work where
  name := name
  closed := false
  worker := .idle
  queue := []
  current := none
  abandoned := []
  stranded := []
  nextId := 0
  awaited := false
  started := []
  resolved := []
  metrics := {}

/-- What the executor shows of itself; it speaks of the pass that the worker runs, not of abandoned
ones. -/
def state (executor : Executor Work) : ExecutorState :=
  if executor.closed then .shutDown
  else if executor.worker.held.isSome then .running
  else .idle

/-- The structural text of an executor. -/
def structuralText (executor : Executor Work) : String :=
  Text.record "ReconciliationExecutor"
    [("name", Text.quoted executor.name), ("state", executor.state.name)]

/-- The outcome of a pass, once it is resolved. -/
def outcomeOf (executor : Executor Work) (id : PassId) : Option Outcome :=
  executor.resolved.lookup id

/-- Resolve a pass. -/
def resolve (executor : Executor Work) (id : PassId) (outcome : Outcome) : Executor Work :=
  { executor with resolved := executor.resolved ++ [(id, outcome)] }

/-- Resolve a pass as superseded, and count it. -/
def supersede (executor : Executor Work) (id : PassId) : Executor Work :=
  { executor with metrics := executor.metrics.recordSuperseded }.resolve id .superseded

/-- Forget the current pass if it is a given one; a newer one stays current. -/
def clearCurrent (executor : Executor Work) (id : PassId) : Executor Work :=
  if executor.current = some id then { executor with current := none } else executor

/-- Tell a pass to stop, wherever it is. -/
def tellToStop (executor : Executor Work) (id : PassId) : Executor Work :=
  { executor with
    queue := executor.queue.map (Pass.tellToStop id)
    worker :=
      match executor.worker with
      | .running pass => .running (Pass.tellToStop id pass)
      | worker => worker }

/-- Tell the current pass to stop, if there is one.  It is no longer current afterwards. -/
def cancelCurrent (executor : Executor Work) : Bool × Executor Work :=
  match executor.current with
  | some id => (true, { executor.tellToStop id with current := none })
  | none => (false, executor)

/-- Accept a pass and cancel the one before it.  Every submission takes a number, a refused one too.
A worker that is gone accepts nothing, although its executor was never shut down. -/
def submit (executor : Executor Work) (work : Work) :
    Except Error PassId × Executor Work :=
  let id := executor.nextId
  let executor := { executor with nextId := id + 1 }
  if executor.closed then (.error .rejected, executor)
  else
    let executor := executor.cancelCurrent.2
    match executor.worker with
    | .gone => (.error .rejected, executor)
    | _ =>
        (.ok id,
          { executor with
            current := some id
            queue := executor.queue ++ [⟨id, false, work⟩]
            metrics := executor.metrics.recordSubmitted })

/-- Stop accepting passes and cancel the current one, without waiting. -/
def shutdownNow (executor : Executor Work) : Executor Work :=
  if executor.closed then executor
  else { executor with closed := true }.cancelCurrent.2

/-- The idle worker takes the next pass.  A cancelled one is superseded without beginning. -/
def takeNext (executor : Executor Work) : Executor Work :=
  match executor.worker, executor.queue with
  | .idle, pass :: rest =>
      let executor := { executor with queue := rest }
      if pass.cancelled then executor.supersede pass.id
      else
        { executor with worker := .running pass, started := executor.started ++ [pass.id] }
  | _, _ => executor

/-- The worker notices that the pass it runs was cancelled.  It abandons the pass, or, while the
executor is shutting down, waits for its work. -/
def noticeCancellation (executor : Executor Work) : Executor Work :=
  match executor.worker with
  | .running pass =>
      if !pass.cancelled then executor
      else if executor.closed then { executor with worker := .draining pass }
      else
        ({ executor with
            worker := .idle
            abandoned := executor.abandoned ++ [pass]
            metrics := executor.metrics.moveAbandoned 1 }.clearCurrent pass.id).supersede pass.id
  | _ => executor

/-- The end of a pass that the worker ran and whose work has returned.  An interrupted pass was
superseded, an error is counted under its kind. -/
def conclude (executor : Executor Work) (id : PassId) (result : Except Error Report) :
    Executor Work :=
  match result with
  | .ok report =>
      if report.interrupted then executor.supersede id
      else
        { executor with metrics := executor.metrics.recordEnd true Duration.zero }.resolve id
          (.scheduled report)
  | .error failure =>
      { executor with
        metrics := (executor.metrics.recordFailure failure.kind).recordEnd false
          Duration.zero }.resolve id (.failed failure.message)

/-- The work of a pass returns.  Only a pass that the worker still runs ends by what its work
returned; for any other the result comes too late. -/
def workReturned (executor : Executor Work) (id : PassId) (result : Except Error Report) :
    Executor Work :=
  let executor :=
    match executor.worker with
    | .running pass =>
        if pass.id = id then
          ({ executor with worker := .idle }.clearCurrent id).conclude id result
        else executor
    | .draining pass =>
        if pass.id = id then
          ({ executor with worker := .idle }.clearCurrent id).supersede id
        else executor
    | .idle | .gone => executor
  let executor :=
    if executor.abandoned.any (·.id = id) then
      { executor with
        abandoned := executor.abandoned.filter (·.id ≠ id)
        metrics := executor.metrics.moveAbandoned (-1) }
    else executor
  { executor with stranded := executor.stranded.filter (·.id ≠ id) }

/-- The worker is gone from one moment to the next: what it ran and what it has not taken is
superseded without being counted, and the work it ran is nobody's concern any more. -/
def dismissWorker (executor : Executor Work) : Executor Work :=
  let held := executor.worker.held.toList
  { executor with
    worker := .gone
    queue := []
    stranded := executor.stranded ++ held
    resolved := executor.resolved
      ++ (held ++ executor.queue).map fun pass => (pass.id, Outcome.superseded) }

/-- Note how far the work of a pass has come, wherever the pass is. -/
def setWork (executor : Executor Work) (id : PassId) (work : Work) : Executor Work :=
  { executor with
    worker :=
      match executor.worker with
      | .running pass => .running (Pass.withWork id work pass)
      | .draining pass => .draining (Pass.withWork id work pass)
      | worker => worker
    queue := executor.queue.map (Pass.withWork id work)
    abandoned := executor.abandoned.map (Pass.withWork id work)
    stranded := executor.stranded.map (Pass.withWork id work) }

/-- The pass with a number, if its work has not returned. -/
def pass? (executor : Executor Work) (id : PassId) : Option (Pass Work) :=
  (executor.worker.held.toList ++ executor.queue ++ executor.abandoned
    ++ executor.stranded).find? (·.id = id)

end Executor

/-- What the work of a pass does when it may go on: whether the pass is cancelled decides how, and
the surroundings may change with it.  Either it stops somewhere, or it returns. -/
abbrev GoOn (Work World : Type) :=
  (cancelled : Bool) → Work → World → (Work ⊕ Except Error Report) × World

namespace Executor

variable {Work World : Type}

/-- The work of one pass goes on as far as it can. -/
def goOn (step : GoOn Work World) (pass : Pass Work) (executor : Executor Work) (world : World) :
    Executor Work × World :=
  match step pass.cancelled pass.work world with
  | (.inl work, world) => (executor.setWork pass.id work, world)
  | (.inr result, world) => (executor.workReturned pass.id result, world)

/-- The work that no worker waits for goes on. -/
def goOnUnattended (step : GoOn Work World) (executor : Executor Work) (world : World) :
    Executor Work × World :=
  (executor.abandoned ++ executor.stranded).foldl
    (fun state pass => goOn step pass state.1 state.2) (executor, world)

/-- The worker attends to the pass it has: it notices a cancellation, and the work goes on. -/
def attend (step : GoOn Work World) (executor : Executor Work) (world : World) :
    Executor Work × World :=
  let executor := executor.noticeCancellation
  match executor.worker.held with
  | some pass => goOn step pass executor world
  | none => (executor, world)

/-- The worker attends to passes until it is held up or a number of further ones have been taken. -/
def attendAll (step : GoOn Work World) : Nat → Executor Work → World → Executor Work × World
  | 0, executor, world => attend step executor world
  | further + 1, executor, world =>
      let (executor, world) := attend step executor world
      attendAll step further executor.takeNext world

/-- Come to rest: everything that can go on does, the oldest first. -/
def settle (step : GoOn Work World) (executor : Executor Work) (world : World) :
    Executor Work × World :=
  let (executor, world) := goOnUnattended step executor world
  let (executor, world) := attendAll step executor.queue.length executor world
  goOnUnattended step executor world

/-- Shut down and wait until the worker has finished.  Nobody waits twice.  A worker that is held up
by the work of a pass is dismissed when the waiting has taken too long. -/
def shutdown (step : GoOn Work World) (executor : Executor Work) (world : World) :
    Bool × Executor Work × World :=
  let executor := executor.shutdownNow
  if executor.awaited then (true, executor, world)
  else
    let (executor, world) := settle step { executor with awaited := true } world
    if executor.worker.held.isSome then (false, executor.dismissWorker, world)
    else (true, executor, world)

end Executor

end Custody
