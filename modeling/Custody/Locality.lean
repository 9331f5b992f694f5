/-
# Localities

A locality answers whether the local node is responsible for a key.  Where there is no cluster it
always is; otherwise it is responsible for the keys in the segments of which it is the primary
owner under one topology.  Two such localities are compared by their segments, never by their keys.
-/

import Custody.Partitioner
import Custody.Snapshot.Basic

namespace Custody

/-- The keys in some segments, for one node under one topology. -/
structure SegmentLocality (K : Type) where
  partitioner : Partitioner K
  segments : SegmentSet
  topology : TopologyId
  node : NodeId

namespace SegmentLocality

variable {K : Type}

/-- The keys for which a node is the primary owner under a snapshot. -/
def ofSnapshot (partitioner : Partitioner K) (snapshot : Snapshot) (node : NodeId) :
    SegmentLocality K :=
  ⟨partitioner, snapshot.primarySegments node, snapshot.topology, node⟩

/-- Whether a segment is owned. -/
def ownsSegment (locality : SegmentLocality K) (segment : SegmentId) : Bool :=
  locality.segments.contains segment

/-- Whether a key is owned. -/
def owns (locality : SegmentLocality K) (key : K) : Bool :=
  locality.ownsSegment (locality.partitioner.segmentOf key)

/-- Whether every segment of the second locality is owned under the first. -/
def containsAll (first second : SegmentLocality K) : Bool :=
  first.segments.includes second.segments

/-- What is owned now and was not before. -/
def gainedSince (now before : SegmentLocality K) : SegmentLocality K :=
  { now with segments := now.segments.diff before.segments }

/-- What was owned before and no longer is. -/
def lostSince (now before : SegmentLocality K) : SegmentLocality K :=
  { now with segments := before.segments.diff now.segments }

/-- What is owned now and was before. -/
def keptSince (now before : SegmentLocality K) : SegmentLocality K :=
  { now with segments := now.segments.inter before.segments }

/-- The structural text of a locality. -/
def structuralText (locality : SegmentLocality K) : String :=
  Text.record "SegmentLocality"
    [("topology_id", toString locality.topology), ("node_id", toString locality.node),
      ("segments", Text.braced (locality.segments.toList.map toString))]

end SegmentLocality

/-- Whether the local node is responsible for a key. -/
inductive Locality (K : Type) where
  /-- The node is responsible for every key. -/
  | everywhere
  /-- The node is responsible for the keys in some segments. -/
  | segments (locality : SegmentLocality K)

/-- Whether a key is owned. -/
def Locality.owns {K : Type} : Locality K → K → Bool
  | everywhere, _ => true
  | segments locality, key => locality.owns key

end Custody
