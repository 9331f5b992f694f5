/-
# The reconciling listener

The listener turns announcements of transitions into work.  About to lose segments, it cancels the
pass that is under way and runs a cancellation pass, which the notifier waits for.  Having gained
segments, it installs the new locality and submits a scheduling pass, which the notifier does not
wait for.  What these passes do to entries is left to the tasks that the listener was given.
-/

import Custody.Executor.Basic
import Custody.Notifier.Basic

namespace Custody

/-- What a cancellation pass did. -/
structure CancelPass where
  /-- The entries that it disarmed. -/
  entries : Nat
  elapsed : Duration
deriving DecidableEq, Repr

/-- The work behind the passes of a listener, with the surroundings that it changes. -/
structure Tasks (K Work World : Type) where
  /-- Disarm everything outside a locality; the pass may break down. -/
  cancel : SegmentLocality K → World → Option CancelPass × World
  /-- Let a locality decide from now on. -/
  install : SegmentLocality K → World → World
  /-- The work of arming what the second locality owns and the first does not. -/
  schedule : (old new : SegmentLocality K) → Work

/-- A listener with its executor. -/
structure Listener (K Work : Type) where
  partitioner : Partitioner K
  config : Config
  executor : Executor Work
  metrics : TransitionMetrics

namespace Listener

variable {K Work World : Type}

/-- A listener for a partitioner that has as many segments as the configuration says. -/
def new (partitioner : Partitioner K) (config : Config) : Except Error (Listener K Work) :=
  match config.validate with
  | .error failure => .error failure
  | .ok () =>
      if partitioner.segmentCount ≠ config.segmentCount then
        .error (.config ("partitioner has " ++ toString partitioner.segmentCount
          ++ " segments, config has " ++ toString config.segmentCount))
      else .ok ⟨partitioner, config, .new config.workerName, {}⟩

/-- What the local node of a notifier owns under the snapshot in effect. -/
def currentLocality (listener : Listener K Work) (notifier : Notifier) : SegmentLocality K :=
  .ofSnapshot listener.partitioner notifier.current notifier.localNode

/-- The first thing to do about a loss: the pass under way is cancelled. -/
def beginLoss (listener : Listener K Work) : Listener K Work :=
  { listener with executor := listener.executor.cancelCurrent.2 }

/-- The cancellation pass for a loss has ended. -/
def endLoss (listener : Listener K Work) (kept : SegmentLocality K) (elapsed : Duration) :
    Listener K Work :=
  { listener with
    metrics := (listener.metrics.recordCancelPass elapsed
      listener.config.cancelWarnThreshold).setOwned kept.segments.size }

/-- The handle of a cancellation pass; of one that broke down nothing arrives. -/
def lossHandle (pass : Option CancelPass) : Handle :=
  match pass with
  | some pass => (Handle.waiting .cancellation).send (.cancelled pass.entries)
  | none => (Handle.waiting .cancellation).giveUp

/-- The cancellation pass for a loss runs from its beginning to its end. -/
def runLoss (tasks : Tasks K Work World) (listener : Listener K Work) (kept : SegmentLocality K)
    (world : World) : Handle × Listener K Work × World :=
  let (pass, world) := tasks.cancel kept world
  match pass with
  | some done => (lossHandle pass, listener.endLoss kept done.elapsed, world)
  | none => (lossHandle pass, listener, world)

/-- What is done about a gain: the new locality decides from now on, and a pass is submitted. -/
def takeUp (tasks : Tasks K Work World) (listener : Listener K Work) (old new : SegmentLocality K)
    (world : World) : Handle × Listener K Work × World :=
  let world := tasks.install new world
  let (submitted, executor) := listener.executor.submit (tasks.schedule old new)
  let handle :=
    match submitted with
    | .ok id => Handle.waiting (.scheduling id)
    | .error _ => Handle.ready .rejected
  (handle,
    { listener with
      executor := executor
      metrics := listener.metrics.setOwned new.segments.size },
    world)

/-- The listener hears an announcement and does all that it asks for. -/
def react (tasks : Tasks K Work World) (listener : Listener K Work) (event : TopologyEvent)
    (world : World) : Handle × Listener K Work × World :=
  match OwnershipChange.ofEvent listener.partitioner event with
  | .unchanged => (Handle.ready .noop, listener, world)
  | .losing kept _ => runLoss tasks listener.beginLoss kept world
  | .gained old new _ => takeUp tasks listener old new world

/-- Register with a notifier.  What the local node does not own under the snapshot in effect is
disarmed first; when that breaks down, nothing is registered. -/
def register (tasks : Tasks K Work World) (listener : Listener K Work) (notifier : Notifier)
    (world : World) : Option ListenerId × Listener K Work × Notifier × World :=
  let locality := listener.currentLocality notifier
  let (pass, world) := tasks.cancel locality world
  match pass with
  | none => (none, listener, notifier, world)
  | some _ =>
      let (id, notifier) := notifier.addListener
      (some id,
        { listener with metrics := listener.metrics.setOwned locality.segments.size },
        notifier, world)

/-- The structural text of a listener. -/
def structuralText (listener : Listener K Work) (localNode : NodeId) : String :=
  Text.record "SchedulerTopologyListener"
    [("node_id", toString localNode), ("executor", listener.executor.structuralText)]

end Listener

/-- The structural text of a registration, active or not. -/
def registrationText (registration : Option ListenerId) : String :=
  Text.record "ListenerRegistration"
    [("listener", Text.optional (registration.map fun id =>
      Text.wrapped "ListenerId" (toString id)))]

/-- The outcome that a handle receives from an executor, if the pass behind it is resolved. -/
def Handle.receive {Work : Type} (handle : Handle) (executor : Executor Work) : Handle :=
  match handle.id with
  | some (.scheduling id) =>
      match executor.outcomeOf id with
      | some outcome => handle.send outcome
      | none => handle
  | _ => handle

end Custody
