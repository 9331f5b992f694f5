/-
# Nodes

A node is everything that one member of the cluster runs: a notifier that announces transitions, a
listener that reconciles, a scheduler with the entries in custody, and a store that passes read.
Other listeners of the same notifier only look on.

A transition is installed in steps, between which anything else may happen: one listener after the
other hears the first announcement, a loss waits for its cancellation pass to end, the new snapshot
takes effect, one listener after the other hears the second announcement.  Installing a snapshot as
a whole takes these steps with nothing in between.
-/

import Custody.Listener.Basic
import Custody.Scheduler.Pass
import Custody.Store

namespace Custody

/-- A transition that is being installed. -/
structure Installation (K : Type) where
  transition : Transition
  /-- The announcement that is under way. -/
  phase : Phase
  /-- The listeners that have not heard it yet. -/
  unheard : List ListenerId
  /-- The cancellation pass that has to end before the next listener hears. -/
  cancelling : Option (SegmentLocality K)
  /-- What the listeners answered to the second announcement. -/
  handles : List Handle

/-- Whether nothing is left to be done but to return the handles. -/
def Installation.isDone {K : Type} (installation : Installation K) : Bool :=
  !installation.phase.isPre && installation.unheard.isEmpty && installation.cancelling.isNone

/-- All that one member of the cluster runs. -/
structure Node (K : Type) where
  notifier : Notifier
  listener : Listener K (SchedulingPass K)
  scheduler : Scheduler K
  store : Store K
  /-- The registration of the listener, while it is active. -/
  registration : Option ListenerId
  /-- The other listeners of the notifier. -/
  observers : List ListenerId
  /-- What the other listeners saw: the phase of each announcement and the entries armed. -/
  seen : List (Phase × List K)
  installation : Option (Installation K)

namespace Node

variable {K : Type}

/-- A node with an initial snapshot and an empty scheduler; its listener is not yet registered. -/
def new (localNode : NodeId) (initial : Snapshot) (partitioner : Partitioner K) (config : Config)
    (now : Instant) : Except Error (Node K) :=
  (Listener.new partitioner config).map fun listener =>
    { notifier := .new localNode initial
      listener := listener
      scheduler := .new now
      store := {}
      registration := none
      observers := []
      seen := []
      installation := none }

/-- The local node. -/
def localNode (node : Node K) : NodeId := node.notifier.localNode

/-- All that the node measures. -/
def metrics (node : Node K) : Metrics :=
  ⟨node.scheduler.metrics, node.listener.executor.metrics, node.listener.metrics⟩

/-- The work of the listener is done on the scheduler. -/
def tasks : Tasks K (SchedulingPass K) (Scheduler K) where
  cancel kept scheduler :=
    let (count, scheduler) := scheduler.cancelUnowned kept.topology (.segments kept)
    (some ⟨count, .zero⟩, scheduler)
  install new scheduler := (scheduler.install new.topology (.segments new)).2
  schedule := .waiting

/-- Register the listener. -/
def register (node : Node K) : Node K :=
  let (id, listener, notifier, scheduler) :=
    node.listener.register tasks node.notifier node.scheduler
  { node with
    registration := id, listener := listener, notifier := notifier, scheduler := scheduler }

/-- Let another listener look on. -/
def addObserver (node : Node K) : Node K :=
  let (id, notifier) := node.notifier.addListener
  { node with notifier := notifier, observers := node.observers ++ [id] }

/-- Replace the executor. -/
def withExecutor (node : Node K) (executor : Executor (SchedulingPass K)) : Node K :=
  { node with listener := { node.listener with executor := executor } }

/-- The listener hears an announcement and does all that it asks for. -/
def react (node : Node K) (event : TopologyEvent) : Handle × Node K :=
  let (handle, listener, scheduler) := node.listener.react tasks event node.scheduler
  (handle, { node with listener := listener, scheduler := scheduler })

/-- Begin to install a snapshot, unless its topology is not newer. -/
def beginInstall (node : Node K) (next : Snapshot) : Except Error (Node K) :=
  (node.notifier.propose next).map fun transition =>
    { node with
      installation := some ⟨transition, .pre, transition.audience, none, []⟩ }

/-- An observer hears an announcement. -/
def observe (node : Node K) (phase : Phase) : Node K :=
  { node with seen := node.seen ++ [(phase, node.scheduler.ids)] }

/-- The next listener hears the announcement that is under way.  For the listener of the node a loss
leaves its cancellation pass to be run. -/
def hear (node : Node K) (installation : Installation K) (id : ListenerId)
    (unheard : List ListenerId) : Node K :=
  let installation := { installation with unheard := unheard }
  if node.observers.contains id then
    { node.observe installation.phase with
      installation := some { installation with
        handles := installation.handles ++ [Handle.ready .noop] } }
  else
    match OwnershipChange.ofEvent node.listener.partitioner
        (installation.transition.event installation.phase) with
    | .unchanged =>
        { node with
          installation := some { installation with
            handles := installation.handles ++ [Handle.ready .noop] } }
    | .losing kept _ =>
        { node with
          listener := node.listener.beginLoss
          installation := some { installation with cancelling := some kept } }
    | .gained old new _ =>
        let (handle, listener, scheduler) := node.listener.takeUp tasks old new node.scheduler
        { node with
          listener := listener
          scheduler := scheduler
          installation := some { installation with
            handles := installation.handles ++ [handle] } }

/-- The next step of the installation that is under way, if one is left to be taken. -/
def advanceInstall (node : Node K) : Node K :=
  match node.installation with
  | none => node
  | some installation =>
      match installation.cancelling, installation.unheard, installation.phase with
      | some kept, _, _ =>
          let (_, listener, scheduler) := node.listener.runLoss tasks kept node.scheduler
          { node with
            listener := listener
            scheduler := scheduler
            installation := some { installation with cancelling := none } }
      | none, id :: unheard, _ => node.hear installation id unheard
      | none, [], .pre =>
          { node with
            notifier := node.notifier.apply installation.transition
            installation := some { installation with
              phase := .post, unheard := installation.transition.audience, handles := [] } }
      | none, [], .post => node

/-- A number of steps of the installation. -/
def advanceInstallBy : Nat → Node K → Node K
  | 0, node => node
  | steps + 1, node => advanceInstallBy steps node.advanceInstall

/-- The end of an installation that is done. -/
def endInstall (node : Node K) : List Handle × Node K :=
  match node.installation with
  | some installation =>
      if installation.isDone then (installation.handles, { node with installation := none })
      else ([], node)
  | none => ([], node)

/-- Install a snapshot with nothing in between, and return the answers to the second announcement.
Each listener takes at most two steps before the snapshot takes effect and one after. -/
def install (node : Node K) (next : Snapshot) : Except Error (List Handle × Node K) :=
  (node.beginInstall next).map fun begun =>
    (begun.advanceInstallBy (3 * node.notifier.listeners.length + 1)).endInstall

variable [DecidableEq K]

/-- A scheduling pass goes on as far as it can: it asks the store, waits while the store is paused,
and then goes through what the store lists. -/
def goOn : GoOn (SchedulingPass K) (Scheduler K × Store K) := fun cancelled work world =>
  let (scheduler, store) := world
  let (work, store) :=
    match work, work.start with
    | .waiting _ _, .asking gained => (SchedulingPass.asking gained, store.beginEnumeration)
    | _, started => (started, store)
  let (work, store) :=
    match work with
    | .asking gained =>
        if store.paused then (work, store)
        else
          let (answered, store) := store.answer gained
          (work.answer answered, store)
    | work => (work, store)
  let (work, scheduler) := work.finish cancelled scheduler
  match work with
  | .returned result => (.inr result, (scheduler, store))
  | work => (.inl work, (scheduler, store))

/-- Come to rest: passes go on, and then the timers that are due fire. -/
def settle (node : Node K) : Node K :=
  let (executor, scheduler, store) :=
    node.listener.executor.settle goOn (node.scheduler, node.store)
  { node.withExecutor executor with scheduler := scheduler.fireDue, store := store }

/-- Move the clock. -/
def advance (node : Node K) (elapsed : Nat) : Node K :=
  { node with scheduler := node.scheduler.advance elapsed }

/-- Store an entry and arm it if the node owns it. -/
def put (node : Node K) (id : K) (deadline : Instant) : Node K :=
  { node with
    store := node.store.insert id deadline
    scheduler := (node.scheduler.schedule id deadline).2 }

/-- Close the registration and wait for the worker to finish.  When the worker is held up the whole
stop timeout goes by.  One that is closed already stays closed. -/
def close (node : Node K) : Bool × Node K :=
  match node.registration with
  | none => (true, node)
  | some id =>
      let (answer, executor, scheduler, store) :=
        node.listener.executor.shutdown goOn (node.scheduler, node.store)
      let closed :=
        { node.withExecutor executor with
          scheduler := scheduler
          store := store
          notifier := (node.notifier.removeListener id).2
          registration := none }
      (answer,
        if answer then closed else closed.advance node.listener.config.stopTimeout.wholeMillis)

/-- The structural text of a node. -/
def structuralText (node : Node K) : String :=
  Text.record "TestNode"
    [("node_id", toString node.localNode), ("notifier", node.notifier.structuralText),
      ("scheduler", node.scheduler.structuralText)]

end Node

end Custody
