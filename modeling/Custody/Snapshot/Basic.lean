/-
# Ownership snapshots

A snapshot says who owns which segment under one topology.  Each segment has a list of owners, the
primary owner first; a segment without owners is nobody's.  A snapshot made from parts is checked:
it has at least one segment, every owner is a member, and no segment lists an owner twice.  The
members are put in ascending order, since looking one up halves their list.
-/

import Custody.Ascending
import Custody.Error
import Custody.SegmentSet

namespace Custody

/-- Who owns which segment under one topology. -/
structure Snapshot where
  /-- The version of this snapshot. -/
  topology : TopologyId
  /-- The members of the cluster. -/
  members : List NodeId
  /-- The owners of each segment, the primary owner first. -/
  owners : List (List NodeId)
deriving DecidableEq, Repr

namespace Snapshot

/-- The number of segments. -/
def segmentCount (snapshot : Snapshot) : Nat := snapshot.owners.length

/-- Whether looking up a node among the members finds it. -/
def containsMember (snapshot : Snapshot) (node : NodeId) : Bool :=
  Ascending.search node snapshot.members

/-- The owners of a segment, none outside the key space. -/
def ownersOf (snapshot : Snapshot) (segment : SegmentId) : List NodeId :=
  snapshot.owners[segment]?.getD []

/-- The primary owner of a segment. -/
def primaryOwner (snapshot : Snapshot) (segment : SegmentId) : Option NodeId :=
  (snapshot.ownersOf segment).head?

/-- The segments whose primary owner is a given node; a node that is not a member has none. -/
def primarySegments (snapshot : Snapshot) (node : NodeId) : SegmentSet :=
  if snapshot.containsMember node then
    SegmentSet.below snapshot.segmentCount fun segment => snapshot.primaryOwner segment = some node
  else SegmentSet.empty

/-- A snapshot with its members put in order, unchecked. -/
def ofParts (topology : TopologyId) (members : List NodeId) (owners : List (List NodeId)) :
    Snapshot :=
  ⟨topology, Ascending.ofList members, owners⟩

/-- The first owner of a segment that is not a member, or that was listed `earlier`. -/
def ownerFault (snapshot : Snapshot) (segment : SegmentId) :
    (earlier owners : List NodeId) → Option Error
  | _, [] => none
  | earlier, owner :: later =>
      if !snapshot.containsMember owner then
        some (.config ("segment " ++ toString segment ++ " owner " ++ toString owner
          ++ " is not a member"))
      else if earlier.contains owner then
        some (.config ("segment " ++ toString segment ++ " lists owner " ++ toString owner
          ++ " twice"))
      else ownerFault snapshot segment (owner :: earlier) later

/-- The first fault in the owners of segments that are counted from `first`. -/
def segmentFault (snapshot : Snapshot) : SegmentId → List (List NodeId) → Option Error
  | _, [] => none
  | first, owners :: rest =>
      (snapshot.ownerFault first [] owners).or (segmentFault snapshot (first + 1) rest)

/-- A checked snapshot, or the first fault of its parts. -/
def ofParts? (topology : TopologyId) (members : List NodeId) (owners : List (List NodeId)) :
    Except Error Snapshot :=
  if owners.isEmpty then .error (.config "snapshot must have at least one segment")
  else
    let snapshot := ofParts topology members owners
    match snapshot.segmentFault 0 owners with
    | some fault => .error fault
    | none => .ok snapshot

/-- A snapshot without members, in which nobody owns anything. -/
def empty (topology : TopologyId) (segmentCount : Nat) : Snapshot :=
  ofParts topology [] (List.replicate (max segmentCount 1) [])

/-- What a checked snapshot promises: the members ascend, there is a segment, every owner is a
member, and no segment lists an owner twice. -/
structure Valid (snapshot : Snapshot) : Prop where
  membersAscend : snapshot.members.Pairwise (· < ·)
  hasSegment : snapshot.owners ≠ []
  ownersAreMembers : ∀ owners ∈ snapshot.owners, ∀ owner ∈ owners, owner ∈ snapshot.members
  ownersDiffer : ∀ owners ∈ snapshot.owners, owners.Nodup

end Snapshot

end Custody
