/-
# Transitions

A transition leads from one snapshot to the next and is announced twice.  Before it applies a node
gives up what it is about to lose; after it has applied, the node takes up what it gained.  So at
every moment the node acts only on segments that it owns both before and after.
-/

import Custody.Locality

namespace Custody

/-- One announcement of a transition to a node. -/
structure TopologyEvent where
  phase : Phase
  /-- The snapshot before the transition. -/
  old : Snapshot
  /-- The snapshot after it. -/
  new : Snapshot
  /-- The node to which it is announced. -/
  localNode : NodeId
deriving DecidableEq, Repr

namespace TopologyEvent

/-- The topology to which the transition leads. -/
def topology (event : TopologyEvent) : TopologyId := event.new.topology

/-- Whether the local node leaves the cluster. -/
def isLocalLeave (event : TopologyEvent) : Bool :=
  event.old.containsMember event.localNode && !event.new.containsMember event.localNode

end TopologyEvent

/-- What one announcement asks of a node. -/
inductive OwnershipChange (K : Type) where
  /-- Nothing. -/
  | unchanged
  /-- Some segments are about to be lost; the rest is kept. -/
  | losing (kept : SegmentLocality K) (lost : SegmentSet)
  /-- Some segments were gained. -/
  | gained (old new : SegmentLocality K) (segments : SegmentSet)

namespace OwnershipChange

variable {K : Type}

/-- What an announcement asks of its node.  Losses are dealt with before the transition applies and
gains after. -/
def ofEvent (partitioner : Partitioner K) (event : TopologyEvent) : OwnershipChange K :=
  let old := SegmentLocality.ofSnapshot partitioner event.old event.localNode
  let new := SegmentLocality.ofSnapshot partitioner event.new event.localNode
  match event.phase with
  | .pre =>
      if new.containsAll old then unchanged
      else losing (new.keptSince old) (new.lostSince old).segments
  | .post =>
      if old.containsAll new then unchanged
      else gained old new (new.gainedSince old).segments

/-- Whether nothing is asked. -/
def isUnchanged : OwnershipChange K → Bool
  | unchanged => true
  | _ => false

/-- The structural text of a change. -/
def structuralText : OwnershipChange K → String
  | unchanged => "Unchanged"
  | losing kept lost =>
      Text.record "Losing"
        [("retained", kept.structuralText), ("lost", Text.braced (lost.toList.map toString))]
  | gained old new segments =>
      Text.record "Gained"
        [("old", old.structuralText), ("new", new.structuralText),
          ("gained", Text.braced (segments.toList.map toString))]

end OwnershipChange

end Custody
