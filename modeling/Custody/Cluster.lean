/-
# Clusters

The nodes of a cluster share one ring and one store.  When a member joins or leaves, every present
node installs the ownership of the changed ring as its own next topology; a new node begins with a
snapshot in which nobody owns anything, and one that leaves closes its registration and gives up all
its entries.  The store is lent to a node for as long as the node does something.
-/

import Custody.Node.Basic

namespace Custody

/-- Nodes that share a ring and a store. -/
structure Cluster (K : Type) where
  ring : Ring
  partitioner : Partitioner K
  /-- The number of segments of the key space. -/
  segmentCount : Nat
  store : Store K
  now : Instant
  /-- The present nodes, in ascending order. -/
  nodes : List (NodeId × Node K)

/-- What a node answered when it left. -/
structure Departure where
  clean : Bool
  disarmed : Nat
  metrics : Metrics

namespace Cluster

variable {K : Type}

/-- A cluster without nodes. -/
def new (ring : Ring) (partitioner : Partitioner K) (segmentCount : Nat) : Cluster K :=
  ⟨ring, partitioner, segmentCount, {}, 0, []⟩

/-- A node is put in its place, or replaced. -/
def place (id : NodeId) (node : Node K) : List (NodeId × Node K) → List (NodeId × Node K)
  | [] => [(id, node)]
  | (other, present) :: rest =>
      if id < other then (id, node) :: (other, present) :: rest
      else if other < id then (other, present) :: place id node rest
      else (id, node) :: rest

/-- Whether a node is present. -/
def isPresent (cluster : Cluster K) (id : NodeId) : Bool := cluster.nodes.any (·.1 = id)

/-- A node does something with the store in its hands. -/
def lend {α : Type} (cluster : Cluster K) (id : NodeId) (node : Node K)
    (use : Node K → α × Node K) : α × Cluster K :=
  let (answer, node) := use { node with store := cluster.store }
  (answer, { cluster with store := node.store, nodes := place id node cluster.nodes })

/-- Every present node does something, in ascending order. -/
def forEach {α : Type} (cluster : Cluster K) (use : Node K → α × Node K) :
    List (NodeId × α) × Cluster K :=
  cluster.nodes.foldl
    (fun (answers, cluster) (id, node) =>
      let (answer, cluster) := cluster.lend id node use
      (answers ++ [(id, answer)], cluster))
    ([], cluster)

variable [DecidableEq K]

/-- A node installs the ownership of a ring and waits for the outcomes. -/
def installRing (ring : Ring) (node : Node K) : Except Error (List Outcome) × Node K :=
  match node.install (node.notifier.nextOfRing ring) with
  | .error failure => (.error failure, node)
  | .ok (handles, node) =>
      let node := node.settle
      (.ok (handles.map fun handle => (handle.receive node.listener.executor).wait), node)

/-- A member joins.  One that is present already only makes every node install the ring anew. -/
def join (cluster : Cluster K) (id : NodeId) :
    Except Error (List (NodeId × Except Error (List Outcome)) × Cluster K) :=
  let cluster := { cluster with ring := cluster.ring.add id }
  let (answers, cluster) := cluster.forEach (installRing cluster.ring)
  if cluster.isPresent id then .ok (answers, cluster)
  else
    (Node.new id (Snapshot.empty 0 cluster.segmentCount) cluster.partitioner
        { segmentCount := cluster.segmentCount } cluster.now).map fun node =>
      let (answer, cluster) := cluster.lend id node.register (installRing cluster.ring)
      (answers ++ [(id, answer)], cluster)

/-- A node gives up all that it has. -/
def depart (node : Node K) : Departure × Node K :=
  let (clean, node) := node.close
  let (disarmed, scheduler) := node.scheduler.shutdown
  let node := { node with scheduler := scheduler }.settle
  (⟨clean, disarmed, node.metrics⟩, node)

/-- A member leaves.  It still installs the ring without it, and then gives up all that it has. -/
def leave (cluster : Cluster K) (id : NodeId) :
    List (NodeId × Except Error (List Outcome)) × Option Departure × Cluster K :=
  let cluster := { cluster with ring := cluster.ring.remove id }
  let (answers, cluster) := cluster.forEach (installRing cluster.ring)
  match cluster.nodes.lookup id with
  | none => (answers, none, cluster)
  | some node =>
      let (departure, cluster) := cluster.lend id node depart
      (answers, some departure,
        { cluster with nodes := cluster.nodes.filter fun entry => entry.1 ≠ id })

/-- Store keys and offer each of them to every node.  The nodes that armed each key are returned. -/
def put (cluster : Cluster K) (keys : List K) (delay : Nat) : List (NodeId × K) × Cluster K :=
  let deadline := cluster.now + delay
  let (armed, cluster) := keys.foldl
    (fun (armed, cluster) key =>
      let cluster := { cluster with store := cluster.store.insert key deadline }
      let (answers, cluster) := cluster.forEach fun node =>
        let (answer, scheduler) := node.scheduler.schedule key deadline
        (answer, { node with scheduler := scheduler })
      (armed ++ (answers.filter (·.2)).map fun answer => (answer.1, key), cluster))
    (([] : List (NodeId × K)), cluster)
  (armed, (cluster.forEach fun node => ((), node.settle)).2)

/-- Remove keys from the store and cancel them on every node.  For each key it is returned whether
it was stored, and which nodes cancelled it. -/
def remove (cluster : Cluster K) (keys : List K) :
    List (K × Bool × List NodeId) × Cluster K :=
  keys.foldl
    (fun (removed, cluster) key =>
      let (stored, store) := cluster.store.remove key
      let (answers, cluster) := { cluster with store := store }.forEach fun node =>
        let (answer, scheduler) := node.scheduler.cancel key
        (answer, { node with scheduler := scheduler })
      (removed ++ [(key, stored, (answers.filter (·.2)).map (·.1))], cluster))
    (([] : List (K × Bool × List NodeId)), cluster)

/-- Move the clock of every node. -/
def advance (cluster : Cluster K) (elapsed : Nat) : Cluster K :=
  ({ cluster with now := cluster.now + elapsed }.forEach fun node =>
    ((), node.advance elapsed)).2

end Cluster

end Custody
