/-
# Single steps of a node

What a node does as a whole is made of steps between which other steps may come: an application arms
and cancels entries, the clock moves, an installation advances, the worker takes a pass or notices
that one was cancelled, and every pass whose work has begun goes on by one step at a time, also
after it was superseded.  A cancellation pass narrows the gate before it sweeps, and entries may be
armed in between.  Every step is a total function; one that does not apply changes nothing.  A run
is any sequence of steps, so it stands for any interleaving.
-/

import Custody.Node.Basic

namespace Custody

/-- One step of a node. -/
inductive NodeAction (K : Type) where
  /-- An entry is stored. -/
  | store (id : K) (deadline : Instant)
  /-- An entry is removed from the store. -/
  | unstore (id : K)
  /-- An application asks for an entry to be armed. -/
  | schedule (id : K) (deadline : Instant)
  /-- An application cancels an entry. -/
  | cancel (id : K)
  /-- The clock moves, and what is due fires. -/
  | advance (elapsed : Nat)
  /-- The installation of a snapshot begins, if none is under way. -/
  | beginInstall (next : Snapshot)
  /-- The cancellation pass that is under way lets its locality decide; it has yet to take anything
  back. -/
  | narrowGate
  /-- The installation that is under way takes its next step, or ends. -/
  | advanceInstall
  /-- The listener is registered. -/
  | register
  /-- The worker takes the next pass. -/
  | takeNext
  /-- The worker notices that the pass it runs was cancelled. -/
  | noticeCancellation
  /-- The work of a pass that has begun takes its next step. -/
  | passStep (id : PassId)
  /-- Enumerations wait, or go on. -/
  | setPaused (paused : Bool)
  /-- The next enumeration will fail. -/
  | failNext (detail : String)

namespace Executor

/-- The pass with a number, if its work has begun and has not returned. -/
def begun? {Work : Type} (executor : Executor Work) (id : PassId) : Option (Pass Work) :=
  (executor.worker.held.toList ++ executor.abandoned ++ executor.stranded).find? (·.id = id)

end Executor

namespace Node

variable {K : Type} [DecidableEq K]

/-- The next step of the work of a pass: it asks the store, receives the answer, looks whether it
was cancelled, offers one candidate, or returns. -/
def stepWork (node : Node K) (pass : Pass (SchedulingPass K)) : Node K :=
  let executor := node.listener.executor
  match pass.work with
  | .waiting _ _ =>
      let started := pass.work.start
      let node := node.withExecutor (executor.setWork pass.id started)
      match started with
      | .asking _ => { node with store := node.store.beginEnumeration }
      | _ => node
  | .asking gained =>
      if node.store.paused then node
      else
        let (answered, store) := node.store.answer gained
        { node.withExecutor (executor.setWork pass.id (pass.work.answer answered)) with
          store := store }
  | .reading _ _ _ =>
      node.withExecutor (executor.setWork pass.id (pass.work.look pass.cancelled))
  | .holding _ _ _ _ =>
      let (work, scheduler) := pass.work.offer node.scheduler
      { node.withExecutor (executor.setWork pass.id work) with scheduler := scheduler }
  | .returned result => node.withExecutor (executor.workReturned pass.id result)

/-- Take one step. -/
def act (node : Node K) : NodeAction K → Node K
  | .store id deadline => { node with store := node.store.insert id deadline }
  | .unstore id => { node with store := (node.store.remove id).2 }
  | .schedule id deadline =>
      { node with scheduler := (node.scheduler.schedule id deadline).2 }
  | .cancel id => { node with scheduler := (node.scheduler.cancel id).2 }
  | .advance elapsed => node.advance elapsed
  | .beginInstall next =>
      if node.installation.isSome then node
      else
        match node.beginInstall next with
        | .ok begun => begun
        | .error _ => node
  | .narrowGate =>
      match node.installation.bind (·.cancelling) with
      | some kept => { node with scheduler := tasks.install kept node.scheduler }
      | none => node
  | .advanceInstall =>
      match node.installation with
      | some installation =>
          if installation.isDone then node.endInstall.2 else node.advanceInstall
      | none => node
  | .register => if node.registration.isSome then node else node.register
  | .takeNext => node.withExecutor node.listener.executor.takeNext
  | .noticeCancellation => node.withExecutor node.listener.executor.noticeCancellation
  | .passStep id =>
      match node.listener.executor.begun? id with
      | some pass => node.stepWork pass
      | none => node
  | .setPaused paused => { node with store := node.store.setPaused paused }
  | .failNext detail => { node with store := node.store.failNext detail }

/-- The node after a sequence of steps. -/
def run (node : Node K) (actions : List (NodeAction K)) : Node K := actions.foldl act node

end Node

end Custody
