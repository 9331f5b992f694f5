/-
# Sessions with a node

A session gives commands to a node in bursts, after each of which the node comes to rest.  The
handles of announcements are numbered as they come, and an outcome is handed out once, at the rest
after it has arrived.
-/

import Custody.Node.Basic

namespace Custody

/-- A command to a node. -/
inductive NodeCommand (K : Type) where
  /-- Store entries and arm those that the node owns, to fire after a delay. -/
  | put (ids : List K) (delay : Nat)
  | store (id : K) (delay : Nat)
  | unstore (id : K)
  | schedule (id : K) (delay : Nat)
  | cancel (id : K)
  | install (next : Snapshot)
  /-- Install a snapshot and wait for the outcomes. -/
  | installAndWait (next : Snapshot)
  | installRing (ring : Ring)
  /-- Let the listener alone hear an announcement. -/
  | deliver (phase : Phase) (old new : Snapshot)
  | setPaused (paused : Bool)
  | failNext (detail : String)
  | advance (elapsed : Nat)
  | close
  /-- Shut the scheduler down. -/
  | shutdown

/-- What a node answers to a command. -/
inductive NodeReply where
  | done
  | verdict (answer : Bool)
  | disarmed (count : Nat)
  | refused (failure : Error)
  /-- The numbers of new handles. -/
  | handles (numbers : List Nat)
  | outcomes (outcomes : List Outcome)

/-- A node with the handles that nothing has arrived at. -/
structure NodeSession (K : Type) where
  node : Node K
  /-- The handles that were not read yet, with their numbers. -/
  waiting : List (Nat × Handle)
  /-- The number of the next handle. -/
  nextHandle : Nat

namespace NodeSession

variable {K : Type}

/-- A session with a registered node, which may have an observer.  A node needs surroundings that
can run timers. -/
def start (localNode : NodeId) (initial : Snapshot) (partitioner : Partitioner K)
    (config : Config) (observed canRunTimers : Bool) : Except Error (NodeSession K) :=
  match Scheduler.newWithin (K := K) canRunTimers 0 with
  | .error failure => .error failure
  | .ok _ =>
      (Node.new localNode initial partitioner config 0).map fun node =>
        let node := node.register
        ⟨if observed then node.addObserver else node, [], 0⟩

/-- Number new handles. -/
def keep (session : NodeSession K) (handles : List Handle) : List Nat × NodeSession K :=
  let numbers := (List.range handles.length).map (session.nextHandle + ·)
  (numbers,
    { session with
      waiting := session.waiting ++ numbers.zip handles
      nextHandle := session.nextHandle + handles.length })

/-- The answer to an installation whose handles are kept. -/
def keepAll (session : NodeSession K) (installed : Except Error (List Handle × Node K)) :
    NodeReply × NodeSession K :=
  match installed with
  | .error failure => (.refused failure, session)
  | .ok (handles, node) =>
      let (numbers, session) := { session with node := node }.keep handles
      (.handles numbers, session)

/-- Hand out the outcomes that have arrived. -/
def collect (session : NodeSession K) : List (Nat × Outcome) × NodeSession K :=
  let polled := session.waiting.map fun (number, handle) =>
    (number, (handle.receive session.node.listener.executor).poll)
  (polled.filterMap fun (number, outcome, _) => outcome.map (number, ·),
    { session with
      waiting := polled.filterMap fun (number, outcome, handle) =>
        if outcome.isNone then some (number, handle) else none })

variable [DecidableEq K]

/-- Carry out one command. -/
def perform (session : NodeSession K) : NodeCommand K → NodeReply × NodeSession K
  | .put ids delay =>
      let deadline := session.node.scheduler.now + delay
      (.done,
        { session with node := ids.foldl (fun node id => node.put id deadline) session.node })
  | .store id delay =>
      let node := session.node
      (.done, { session with node := { node with
        store := node.store.insert id (node.scheduler.now + delay) } })
  | .unstore id =>
      let (answer, store) := session.node.store.remove id
      (.verdict answer, { session with node := { session.node with store := store } })
  | .schedule id delay =>
      let (answer, scheduler) := session.node.scheduler.scheduleAfter id delay
      (.verdict answer, { session with node := { session.node with scheduler := scheduler } })
  | .cancel id =>
      let (answer, scheduler) := session.node.scheduler.cancel id
      (.verdict answer, { session with node := { session.node with scheduler := scheduler } })
  | .install next => session.keepAll (session.node.install next)
  | .installRing ring =>
      session.keepAll (session.node.install (session.node.notifier.nextOfRing ring))
  | .installAndWait next =>
      match session.node.install next with
      | .error failure => (.refused failure, session)
      | .ok (handles, node) =>
          let node := node.settle
          (.outcomes (handles.map fun handle => (handle.receive node.listener.executor).wait),
            { session with node := node })
  | .deliver phase old new =>
      let (handle, node) := session.node.react ⟨phase, old, new, session.node.localNode⟩
      let (numbers, session) := { session with node := node }.keep [handle]
      (.handles numbers, session)
  | .setPaused paused =>
      let node := session.node
      (.done, { session with node := { node with store := node.store.setPaused paused } })
  | .failNext detail =>
      let node := session.node
      (.done, { session with node := { node with store := node.store.failNext detail } })
  | .advance elapsed => (.done, { session with node := session.node.advance elapsed })
  | .close =>
      let (answer, node) := session.node.close
      (.verdict answer, { session with node := node })
  | .shutdown =>
      let (count, scheduler) := session.node.scheduler.shutdown
      (.disarmed count, { session with node := { session.node with scheduler := scheduler } })

/-- Carry out commands one after the other. -/
def performAll (session : NodeSession K) :
    List (NodeCommand K) → List NodeReply × NodeSession K
  | [] => ([], session)
  | command :: rest =>
      let (reply, session) := session.perform command
      let (replies, session) := session.performAll rest
      (reply :: replies, session)

/-- Come to rest, and hand out what has arrived. -/
def rest (session : NodeSession K) : List (Nat × Outcome) × NodeSession K :=
  { session with node := session.node.settle }.collect

/-- Carry out a burst of commands, come to rest, and hand out what has arrived. -/
def exec (session : NodeSession K) (burst : List (NodeCommand K)) :
    List NodeReply × List (Nat × Outcome) × NodeSession K :=
  let (replies, session) := session.performAll burst
  (replies, session.rest)

/-- The session after a sequence of bursts. -/
def run (session : NodeSession K) (bursts : List (List (NodeCommand K))) : NodeSession K :=
  bursts.foldl (fun session burst => (session.exec burst).2.2) session

end NodeSession

end Custody
