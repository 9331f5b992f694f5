/-
# What moves when a node joins

A new node puts its points between those that are there, so that a walk meets the same nodes in the
same order as before, and the new one now and then among them.  Among the first few nodes of a walk the
new node can push others back, and never brings one forward: the owners of a segment apart from the new
one are the first of its owners before, and they are all of them where the new node is no owner.

So when a node joins nobody else gains a segment, and when a node leaves, which is the same the other
way around, nobody else loses one.
-/

import Mathlib.Data.List.Infix
import Custody.Proofs.Ring.Determination
import Custody.Proofs.Snapshot.Origins
import Custody.Proofs.Transition

namespace Custody

/-- Of the first few values, those that pass a test come first among all that pass it.  If all of them
pass it, they are as many of these. -/
theorem filter_take_prefix {α : Type} (test : α → Bool) (count : Nat) (values : List α) :
    (values.take count).filter test <+: (values.filter test).take count ∧
      ((∀ value ∈ values.take count, test value = true) →
        values.take count = (values.filter test).take count) := by
  have hfirst : (values.take count).filter test <+: values.filter test :=
    (List.take_prefix count values).filter test
  have hshort : ((values.take count).filter test).length ≤ count :=
    (List.length_filter_le _ _).trans (List.length_take_le count values)
  refine ⟨List.prefix_take_iff.mpr ⟨hfirst, hshort⟩, fun hall => ?_⟩
  rw [List.filter_eq_self.mpr hall] at hfirst
  by_cases hmany : count ≤ values.length
  · have hlength : (values.take count).length = count := List.length_take_of_le hmany
    have hsame := List.prefix_iff_eq_take.mp hfirst
    rwa [hlength] at hsame
  · have hwhole : values.take count = values := List.take_of_length_le (by omega)
    rw [hwhole] at hall ⊢
    rw [List.filter_eq_self.mpr hall, hwhole]

namespace Ring

variable {ring : Ring} {node : NodeId}

/-- Where its points are apart from all others, a new node leaves the points that were there. -/
theorem Coherent.filter_points_add (hcoherent : ring.Coherent) (hnew : node ∉ ring.nodes)
    (hapart : PointsApart ring.pointsPerNode (node :: ring.nodes)) :
    (ring.add node).points.filter (·.2 ≠ node) = ring.points := by
  refine PointsAscend.ext ((hcoherent.add node).pointsAscend.filter _) hcoherent.pointsAscend
    fun point => ?_
  rw [List.mem_filter, hcoherent.mem_points_add hnew, decide_eq_true_eq]
  constructor
  · rintro ⟨⟨-, hown⟩ | ⟨hold, -⟩, hother⟩
    · exact absurd hown hother
    · exact hold
  · intro hold
    have hother : point.2 ≠ node := fun hsame => hnew (hsame ▸ (hcoherent.held point hold).1)
    exact ⟨Or.inr ⟨hold, hcoherent.not_shared hnew hapart hold⟩, hother⟩

/-- Apart from a new node a walk meets the same nodes as before. -/
theorem Coherent.filter_walk_add (hcoherent : ring.Coherent) (hnew : node ∉ ring.nodes)
    (hapart : PointsApart ring.pointsPerNode (node :: ring.nodes)) (position : Position) :
    ((ring.add node).walk position).filter (· ≠ node) = ring.walk position := by
  rw [(hcoherent.add node).walk_eq, hcoherent.walk_eq,
    ← hcoherent.filter_points_add hnew hapart, List.filter_map, List.filter_append,
    List.filter_filter, List.filter_filter]
  simp only [Bool.and_comm, Function.comp_def]

/-- The owners of a segment apart from a new node are the first of its owners before; where the new
node is no owner, they are the owners before. -/
theorem Coherent.segmentOwners_add (hcoherent : ring.Coherent) (hnew : node ∉ ring.nodes)
    (hapart : PointsApart ring.pointsPerNode (node :: ring.nodes)) (segment : SegmentId)
    (segmentCount : Nat) :
    ((ring.add node).segmentOwners segment segmentCount).filter (· ≠ node) <+:
        ring.segmentOwners segment segmentCount ∧
      (node ∉ (ring.add node).segmentOwners segment segmentCount →
        (ring.add node).segmentOwners segment segmentCount =
          ring.segmentOwners segment segmentCount) := by
  rw [(hcoherent.add node).segmentOwners_eq, hcoherent.segmentOwners_eq, numOwners_add,
    ← hcoherent.filter_walk_add hnew hapart, eraseDups_filter]
  obtain ⟨hfirst, hsame⟩ := filter_take_prefix (· ≠ node) (max ring.numOwners 1)
    ((ring.add node).walk (segmentPosition segment segmentCount)).eraseDups
  refine ⟨hfirst, fun hnone => hsame fun owner howner => decide_eq_true fun heq => ?_⟩
  exact hnone (heq ▸ howner)

/-- When a node joins, no other node becomes the primary owner of a segment. -/
theorem Coherent.primarySegments_add (hcoherent : ring.Coherent)
    (hapart : PointsApart ring.pointsPerNode (node :: ring.nodes)) {other : NodeId}
    (hother : other ≠ node) (topology newer : TopologyId) (segmentCount : Nat)
    {segment : SegmentId}
    (hmem : segment ∈ ((ring.add node).snapshot newer segmentCount).primarySegments other) :
    segment ∈ (ring.snapshot topology segmentCount).primarySegments other := by
  have hbefore := hcoherent.valid_snapshot topology segmentCount
  have hafter := (hcoherent.add node).valid_snapshot newer segmentCount
  rw [hafter.mem_primarySegments] at hmem
  rw [hbefore.mem_primarySegments]
  have hinside := Snapshot.lt_of_primaryOwner hmem
  rw [segmentCount_snapshot] at hinside
  rw [Snapshot.primaryOwner, ownersOf_snapshot _ _ hinside] at hmem ⊢
  by_cases hthere : node ∈ ring.nodes
  · rwa [add_of_mem hthere] at hmem
  · have hfirst := (hcoherent.segmentOwners_add hthere hapart segment (max segmentCount 1)).1
    obtain ⟨rest, howners⟩ := List.head?_eq_some_iff.mp hmem
    rw [howners, List.filter_cons_of_pos (by simpa using hother)] at hfirst
    obtain ⟨more, hmore⟩ := hfirst
    rw [← hmore]
    rfl

/-- When a node leaves, no other node stops being the primary owner of a segment. -/
theorem Complete.primarySegments_remove (hcomplete : ring.Complete) (hcoherent : ring.Coherent)
    (hapart : PointsApart ring.pointsPerNode ring.nodes) {other : NodeId} (hother : other ≠ node)
    (topology newer : TopologyId) (segmentCount : Nat) {segment : SegmentId}
    (hmem : segment ∈ (ring.snapshot topology segmentCount).primarySegments other) :
    segment ∈ ((ring.remove node).snapshot newer segmentCount).primarySegments other := by
  by_cases hthere : node ∈ ring.nodes
  · rw [← hcomplete.add_remove hcoherent hthere hapart] at hmem
    exact (hcoherent.remove node).primarySegments_add (hapart.cons_remove hthere) hother newer
      topology segmentCount hmem
  · rw [remove_of_not_mem hthere]
    have hbefore := hcoherent.valid_snapshot topology segmentCount
    have hafter := hcoherent.valid_snapshot newer segmentCount
    rw [hbefore.mem_primarySegments] at hmem
    rwa [hafter.mem_primarySegments]

/-- After any history in which the points of all nodes that ever joined and of one more are apart: when
that node joins, the owners of a segment apart from it are the first of its owners before, and all of
them where it is no owner; nobody else is told of a gain when it joins, and nobody else of a loss when
it leaves. -/
theorem after_moves_little (numOwners pointsPerNode : Nat) (changes : List RingChange)
    (node : NodeId) (hapart : PointsApart (max pointsPerNode 1) (node :: joined changes))
    {ring : Ring} (hring : (empty numOwners pointsPerNode).after changes = ring) :
    (node ∉ ring.nodes → ∀ segment segmentCount,
      ((ring.add node).segmentOwners segment segmentCount).filter (· ≠ node) <+:
          ring.segmentOwners segment segmentCount ∧
        (node ∉ (ring.add node).segmentOwners segment segmentCount →
          (ring.add node).segmentOwners segment segmentCount =
            ring.segmentOwners segment segmentCount)) ∧
    ∀ (K : Type) (partitioner : Partitioner K) (phase : Phase) (other : NodeId), other ≠ node →
      ∀ (topology newer : TopologyId) (segmentCount : Nat),
        (∀ old new segments, OwnershipChange.ofEvent partitioner
          ⟨phase, ring.snapshot topology segmentCount,
            (ring.add node).snapshot newer segmentCount, other⟩ ≠ .gained old new segments) ∧
        ∀ kept lost, OwnershipChange.ofEvent partitioner
          ⟨phase, ring.snapshot topology segmentCount,
            (ring.remove node).snapshot newer segmentCount, other⟩ ≠ .losing kept lost := by
  have hcoherent := (coherent_empty numOwners pointsPerNode).after changes
  have hcomplete := complete_after numOwners
    (hapart.of_subset (List.subset_cons_self node _))
  have hsubset := nodes_subset_joined numOwners pointsPerNode changes
  have hpointsPerNode : ((empty numOwners pointsPerNode).after changes).pointsPerNode =
      max pointsPerNode 1 := pointsPerNode_after _ changes
  rw [hring] at hcoherent hcomplete hsubset hpointsPerNode
  rw [← hpointsPerNode] at hapart
  have hnodes : PointsApart ring.pointsPerNode (node :: ring.nodes) :=
    hapart.of_subset (List.cons_subset_cons _ hsubset)
  have hold : PointsApart ring.pointsPerNode ring.nodes :=
    hnodes.of_subset (List.subset_cons_self _ _)
  refine ⟨fun hnew segment segmentCount =>
    hcoherent.segmentOwners_add hnew hnodes segment segmentCount,
    fun K partitioner phase other hother topology newer segmentCount => ⟨?_, ?_⟩⟩
  · intro old new segments
    exact OwnershipChange.ne_gained fun segment hmem =>
      hcoherent.primarySegments_add hnodes hother topology newer segmentCount hmem
  · intro kept lost
    exact OwnershipChange.ne_losing fun segment hmem =>
      hcomplete.primarySegments_remove hcoherent hold hother topology newer segmentCount hmem

/-- The first, the second and the fourth node join, and the second leaves. -/
def secondLeaving : List RingChange := [.join 1, .join 2, .leave 2, .join 4]

/-- When the third node joins, it pushes the fourth back in a segment and leaves another as it was, and
the fourth is told of no gain; when the fourth leaves, the first is told of no loss. -/
theorem after_moves_little_secondLeaving :
    PointsApart 2 (3 :: joined secondLeaving) ∧ PointsApart 2 (4 :: joined secondLeaving) ∧
      ((empty 2 2).after secondLeaving).segmentOwners 3 8 = [4, 1] ∧
      (((empty 2 2).after secondLeaving).add 3).segmentOwners 3 8 = [3, 4] ∧
      (((empty 2 2).after secondLeaving).add 3).segmentOwners 0 8 =
        ((empty 2 2).after secondLeaving).segmentOwners 0 8 ∧
      ∀ (K : Type) (partitioner : Partitioner K),
        (∀ old new segments, OwnershipChange.ofEvent partitioner
          ⟨.post, ((empty 2 2).after secondLeaving).snapshot 1 8,
            (((empty 2 2).after secondLeaving).add 3).snapshot 2 8, 4⟩ ≠
              .gained old new segments) ∧
        ∀ kept lost, OwnershipChange.ofEvent partitioner
          ⟨.pre, ((empty 2 2).after secondLeaving).snapshot 1 8,
            (((empty 2 2).after secondLeaving).remove 4).snapshot 2 8, 1⟩ ≠
              .losing kept lost := by
  have hthird : PointsApart 2 (3 :: joined secondLeaving) := by decide +kernel
  have hfourth : PointsApart 2 (4 :: joined secondLeaving) := by decide +kernel
  have hnew : 3 ∉ ((empty 2 2).after secondLeaving).nodes := by decide +kernel
  have hnone : 3 ∉ (((empty 2 2).after secondLeaving).add 3).segmentOwners 0 8 := by
    decide +kernel
  obtain ⟨hlists, hjoin⟩ := after_moves_little 2 2 secondLeaving 3 hthird rfl
  obtain ⟨-, hleave⟩ := after_moves_little 2 2 secondLeaving 4 hfourth rfl
  refine ⟨hthird, hfourth, by decide +kernel, by decide +kernel, (hlists hnew 0 8).2 hnone,
    fun K partitioner => ⟨?_, ?_⟩⟩
  · exact (hjoin K partitioner .post 4 (by decide) 1 2 8).1
  · exact (hleave K partitioner .pre 1 (by decide) 1 2 8).2

end Ring

end Custody
