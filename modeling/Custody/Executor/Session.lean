/-
# Sessions with an executor

In a session the work of each pass is settled beforehand: what it returns, and whether something
holds it up until it is released.  Actions come in bursts; nothing moves within a burst, unless
somebody waits for the worker to finish, and the executor comes to rest after it.
-/

import Custody.Executor.Basic

namespace Custody

/-- What holds up the work of a pass. -/
inductive Hold where
  /-- The work waits until it is released, or until its pass is cancelled; then it reports that it
  was interrupted. -/
  | untilCancelled
  /-- The work waits until it is released, whether its pass is cancelled or not. -/
  | untilReleased
deriving DecidableEq, Repr

/-- Work that is settled beforehand. -/
structure ScriptedWork where
  hold : Option Hold
  released : Bool
  result : Except Error Report

namespace ScriptedWork

/-- The work goes on: it returns, or it waits. -/
def goOn : GoOn ScriptedWork Unit := fun cancelled work world =>
  if work.released then (.inr work.result, world)
  else
    match work.hold with
    | none => (.inr work.result, world)
    | some .untilCancelled =>
        if cancelled then (.inr (.ok { interrupted := true }), world) else (.inl work, world)
    | some .untilReleased => (.inl work, world)

end ScriptedWork

/-- One action on an executor. -/
inductive ExecutorAction where
  | submit (work : ScriptedWork)
  | release (id : PassId)
  | cancelCurrent
  | shutdownNow
  /-- Shut down and wait for the worker, though not for ever. -/
  | shutdown

/-- What an executor answers to an action. -/
inductive ExecutorReply where
  | done
  | verdict (answer : Bool)
  | submitted (result : Except Error PassId)

namespace Executor

/-- Release the work of a pass, wherever the pass is. -/
def release (executor : Executor ScriptedWork) (id : PassId) : Executor ScriptedWork :=
  match executor.pass? id with
  | some pass => executor.setWork id { pass.work with released := true }
  | none => executor

/-- Carry out one action. -/
def perform (executor : Executor ScriptedWork) :
    ExecutorAction → ExecutorReply × Executor ScriptedWork
  | .submit work =>
      let (result, executor) := executor.submit work
      (.submitted result, executor)
  | .release id => (.done, executor.release id)
  | .cancelCurrent =>
      let (answer, executor) := executor.cancelCurrent
      (.verdict answer, executor)
  | .shutdownNow => (.done, executor.shutdownNow)
  | .shutdown =>
      let (answer, executor, _) := shutdown ScriptedWork.goOn executor ()
      (.verdict answer, executor)

/-- Come to rest. -/
def rest (executor : Executor ScriptedWork) : Executor ScriptedWork :=
  (settle ScriptedWork.goOn executor ()).1

/-- Carry out actions one after the other. -/
def performAll (executor : Executor ScriptedWork) :
    List ExecutorAction → List ExecutorReply × Executor ScriptedWork
  | [] => ([], executor)
  | action :: rest =>
      let (reply, executor) := executor.perform action
      let (replies, executor) := executor.performAll rest
      (reply :: replies, executor)

/-- Carry out a burst of actions and come to rest. -/
def exec (executor : Executor ScriptedWork) (burst : List ExecutorAction) :
    List ExecutorReply × Executor ScriptedWork :=
  let (replies, executor) := executor.performAll burst
  (replies, executor.rest)

/-- The executor after a sequence of bursts. -/
def run (executor : Executor ScriptedWork) (bursts : List (List ExecutorAction)) :
    Executor ScriptedWork :=
  bursts.foldl (fun executor burst => (executor.exec burst).2) executor

/-- Release all work that has not returned. -/
def releaseAll (executor : Executor ScriptedWork) : Executor ScriptedWork :=
  (List.range executor.nextId).foldl release executor

end Executor

end Custody
