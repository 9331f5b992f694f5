/-
# The hash ring

A ring places segments on nodes.  Every node has the same number of points on a circle of 64-bit
positions, each found by hashing the node's number and the point's index.  Segments sit at evenly
spaced positions, and a segment belongs to the nodes met on a clockwise walk from its position,
each counted where it is met first.  When nodes come and go, only the segments next to their points
move.
-/

import Custody.Ascending
import Custody.Config
import Custody.Hash.KeyBytes
import Custody.Snapshot.Basic

namespace Custody

/-- A position on the circle, below two to the power of 64. -/
abbrev Position := Nat

/-- The last position of the circle. -/
def lastPosition : Position := UInt64.size - 1

/-- A placement of nodes on a circle. -/
structure Ring where
  /-- The points of all nodes, in ascending order of their positions; one position has one node. -/
  points : List (Position × NodeId)
  /-- The number of points of a node. -/
  pointsPerNode : Nat
  /-- The number of owners of a segment. -/
  numOwners : Nat
  /-- The nodes of the ring, in ascending order. -/
  nodes : List NodeId
deriving DecidableEq

namespace Ring

/-- The number of points of a node where nothing else is said. -/
def defaultPointsPerNode : Nat := 256

/-- A ring without nodes; owners and points are at least one. -/
def empty (numOwners : Nat) (pointsPerNode : Nat := defaultPointsPerNode) : Ring :=
  ⟨[], max pointsPerNode 1, max numOwners 1, []⟩

/-- A ring without nodes with the configured number of owners. -/
def ofConfig (config : Config) : Ring := empty config.numOwners

instance : Inhabited Ring := ⟨empty 2⟩

/-- The position of one point of a node. -/
def pointPosition (node : NodeId) (index : Nat) : Position :=
  let key := toString node ++ ":" ++ toString index
  (KeyBytes.hash key.toUTF8.toList).toNat

/-- Put a point on the circle; a point already there changes hands. -/
def putPoint (position : Position) (node : NodeId) :
    List (Position × NodeId) → List (Position × NodeId)
  | [] => [(position, node)]
  | (other, holder) :: rest =>
      if position < other then (position, node) :: (other, holder) :: rest
      else if other < position then (other, holder) :: putPoint position node rest
      else (position, node) :: rest

/-- Take the point at a position off the circle, whoever holds it. -/
def takePoint (position : Position) (points : List (Position × NodeId)) :
    List (Position × NodeId) :=
  points.filter fun point => point.1 ≠ position

/-- Whether a node is on the ring. -/
def contains (ring : Ring) (node : NodeId) : Bool := ring.nodes.contains node

/-- Add a node with all its points; a node that is there already changes nothing. -/
def add (ring : Ring) (node : NodeId) : Ring :=
  if ring.contains node then ring
  else
    { ring with
      nodes := Ascending.insert node ring.nodes
      points := (List.range ring.pointsPerNode).foldl
        (fun points index => putPoint (pointPosition node index) node points) ring.points }

/-- Remove a node with all its points; a node that is not there changes nothing. -/
def remove (ring : Ring) (node : NodeId) : Ring :=
  if ring.contains node then
    { ring with
      nodes := ring.nodes.filter (· ≠ node)
      points := (List.range ring.pointsPerNode).foldl
        (fun points index => takePoint (pointPosition node index) points) ring.points }
  else ring

/-- The ring with several nodes added in order. -/
def addAll (ring : Ring) (nodes : List NodeId) : Ring := nodes.foldl add ring

/-- The nodes met on a clockwise walk from a position: first to the end of the circle, then once
around. -/
def walk (ring : Ring) (position : Position) : List NodeId :=
  (ring.points.dropWhile (fun point => point.1 < position) ++ ring.points).map (·.2)

/-- Collect nodes that are met for the first time until there are `count` of them or all `total`
nodes are found. -/
def collect (count total : Nat) : (found walk : List NodeId) → List NodeId
  | found, [] => found
  | found, node :: rest =>
      if found.contains node then collect count total found rest
      else if count ≤ found.length + 1 ∨ total ≤ found.length + 1 then found ++ [node]
      else collect count total (found ++ [node]) rest

/-- Up to `count` different owners from a position on, the primary owner first. -/
def ownersAt (ring : Ring) (position : Position) (count : Nat) : List NodeId :=
  if ring.points.isEmpty then []
  else collect count ring.nodes.length [] (ring.walk position)

/-- The position of a segment; segments are evenly spaced. -/
def segmentPosition (segment : SegmentId) (segmentCount : Nat) : Position :=
  min lastPosition (lastPosition / max segmentCount 1 * segment)

/-- The owners of a segment, the primary owner first. -/
def segmentOwners (ring : Ring) (segment : SegmentId) (segmentCount : Nat) : List NodeId :=
  ring.ownersAt (segmentPosition segment segmentCount) ring.numOwners

/-- The primary owner of a segment, if the ring has a node. -/
def primaryOwner (ring : Ring) (segment : SegmentId) (segmentCount : Nat) : Option NodeId :=
  (ring.ownersAt (segmentPosition segment segmentCount) 1).head?

/-- The ownership of all segments at this moment. -/
def snapshot (ring : Ring) (topology : TopologyId) (segmentCount : Nat) : Snapshot :=
  let count := max segmentCount 1
  Snapshot.ofParts topology ring.nodes
    ((List.range count).map fun segment => ring.segmentOwners segment count)

/-- The ownership of a ring covers the segments that are asked for, at least one. -/
theorem segmentCount_snapshot (ring : Ring) (topology : TopologyId) (segmentCount : Nat) :
    (ring.snapshot topology segmentCount).segmentCount = max segmentCount 1 := by
  simp [snapshot, Snapshot.segmentCount, Snapshot.ofParts]

/-- Count one more segment of a node, keeping the nodes in order. -/
def countNode (node : NodeId) : List (NodeId × Nat) → List (NodeId × Nat)
  | [] => [(node, 1)]
  | (other, count) :: rest =>
      if node = other then (other, count + 1) :: rest
      else if node < other then (node, 1) :: (other, count) :: rest
      else (other, count) :: countNode node rest

/-- The number of primary segments of each node that has any, in the order of the nodes. -/
def distribution (ring : Ring) (segmentCount : Nat) : List (NodeId × Nat) :=
  ((List.range segmentCount).filterMap fun segment => ring.primaryOwner segment segmentCount).foldr
    countNode []

/-- The structural text of a ring. -/
def structuralText (ring : Ring) : String :=
  Text.record "HashRing"
    [("vnodes", Text.mapping (ring.points.map fun (position, node) =>
        (toString position, toString node))),
      ("vnodes_per_node", toString ring.pointsPerNode),
      ("num_owners", toString ring.numOwners),
      ("nodes", Text.bracketed (ring.nodes.map toString))]

end Ring

end Custody
