/-
# The history of a ring

Nodes join a ring and leave it, in any order and as often as they like: a node may join twice, leave
without having joined, and come back.  What the ring places depends on its points, and these are
known beforehand for every node that ever joins.  Nothing rules out that two points are hashed to one
position; where it does not happen among some nodes, their points are said to be apart.
-/

import Custody.Ring

namespace Custody

/-- A node joins a ring or leaves it. -/
inductive RingChange where
  | join (node : NodeId)
  | leave (node : NodeId)
deriving DecidableEq, Repr

namespace RingChange

/-- The node that joins or leaves. -/
def node : RingChange → NodeId
  | join node | leave node => node

/-- The node that joins, if one does. -/
def joining : RingChange → Option NodeId
  | join node => some node
  | leave _ => none

end RingChange

namespace Ring

/-- The ring after one change. -/
def change (ring : Ring) : RingChange → Ring
  | .join node => ring.add node
  | .leave node => ring.remove node

/-- The ring after some changes. -/
def after (ring : Ring) (changes : List RingChange) : Ring := changes.foldl change ring

/-- The nodes that ever joined. -/
def joined (changes : List RingChange) : List NodeId := changes.filterMap (·.joining)

/-- No two points of some nodes have one position, each node having the same number of points. -/
def PointsApart (pointsPerNode : Nat) (nodes : List NodeId) : Prop :=
  ∀ first ∈ nodes, ∀ second ∈ nodes, ∀ index < pointsPerNode, ∀ other < pointsPerNode,
    pointPosition first index = pointPosition second other → first = second ∧ index = other

/-- Only the listed nodes are gone through, and not all identities there are. -/
instance (pointsPerNode : Nat) (nodes : List NodeId) :
    Decidable (PointsApart pointsPerNode nodes) :=
  @List.decidableBAll _ _ (fun _ => @List.decidableBAll _ _ (fun _ => inferInstance) nodes) nodes

/-- What is apart stays so among fewer nodes. -/
theorem PointsApart.of_subset {pointsPerNode : Nat} {nodes part : List NodeId}
    (hapart : PointsApart pointsPerNode nodes) (hpart : part ⊆ nodes) :
    PointsApart pointsPerNode part :=
  fun first hfirst second hsecond => hapart first (hpart hfirst) second (hpart hsecond)

end Ring

end Custody
