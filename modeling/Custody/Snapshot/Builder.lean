/-
# Building snapshots step by step

A snapshot is built by naming members and giving them segments, as primary owner or as backup.  A
new primary owner goes to the front and leaves the previous ones behind it as backups; a backup
goes to the end unless it is an owner already.  A segment outside the key space is not an error at
once: the first one is remembered and refuses the snapshot at the end.
-/

import Custody.Snapshot.Basic

namespace Custody

/-- One step in building a snapshot. -/
inductive BuildStep where
  /-- Name a member that may own nothing. -/
  | member (node : NodeId)
  /-- Make a node the primary owner of segments. -/
  | primary (node : NodeId) (segments : List SegmentId)
  /-- Make a node a backup owner of segments. -/
  | backup (node : NodeId) (segments : List SegmentId)
deriving DecidableEq, Repr

/-- A snapshot that is being built. -/
structure SnapshotBuilder where
  topology : TopologyId
  /-- The nodes named so far, the latest first. -/
  members : List NodeId
  owners : List (List NodeId)
  /-- The first segment that lay outside the key space. -/
  outOfRange : Option SegmentId
deriving DecidableEq, Repr

namespace SnapshotBuilder

/-- Nothing is named and nobody owns anything. -/
def start (topology : TopologyId) (segmentCount : Nat) : SnapshotBuilder :=
  ⟨topology, [], List.replicate (max segmentCount 1) [], none⟩

/-- The new owners of a segment whose primary owner becomes `node`. -/
def promote (node : NodeId) (owners : List NodeId) : List NodeId :=
  node :: owners.filter (· ≠ node)

/-- The new owners of a segment of which `node` becomes a backup. -/
def append (node : NodeId) (owners : List NodeId) : List NodeId :=
  if owners.contains node then owners else owners ++ [node]

/-- Change the owners of one segment, or remember that it does not exist. -/
def assign (change : List NodeId → List NodeId) (builder : SnapshotBuilder)
    (segment : SegmentId) : SnapshotBuilder :=
  if segment < builder.owners.length then
    { builder with owners := builder.owners.modify segment change }
  else { builder with outOfRange := builder.outOfRange.or (some segment) }

/-- Name a node. -/
def named (builder : SnapshotBuilder) (node : NodeId) : SnapshotBuilder :=
  { builder with members := node :: builder.members }

/-- Take one step. -/
def step (builder : SnapshotBuilder) : BuildStep → SnapshotBuilder
  | .member node => builder.named node
  | .primary node segments => segments.foldl (assign (promote node)) (builder.named node)
  | .backup node segments => segments.foldl (assign (append node)) (builder.named node)

/-- The finished snapshot. -/
def finish (builder : SnapshotBuilder) : Except Error Snapshot :=
  match builder.outOfRange with
  | some segment => .error (.invalidSegment segment builder.owners.length)
  | none => Snapshot.ofParts? builder.topology builder.members builder.owners

end SnapshotBuilder

namespace Snapshot

/-- The snapshot that a sequence of steps builds. -/
def build (topology : TopologyId) (segmentCount : Nat) (steps : List BuildStep) :
    Except Error Snapshot :=
  (steps.foldl SnapshotBuilder.step (SnapshotBuilder.start topology segmentCount)).finish

/-- The snapshot in which each listed node is the primary owner of its segments. -/
def ofPrimaries (topology : TopologyId) (segmentCount : Nat)
    (assignments : List (NodeId × List SegmentId)) : Except Error Snapshot :=
  build topology segmentCount (assignments.map fun (node, segments) => .primary node segments)

end Snapshot

end Custody
