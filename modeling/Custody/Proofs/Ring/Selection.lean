/-
# Who is selected as owner

Once around the circle from a position, each point is met once: first those that are not below the
position, then those below it.  The nodes in the order in which they are met first are the owners that
a segment can have, and it has as many of them as the ring asks for, or all.  A collision of points can
leave a node of the ring without any, and then it is met nowhere; this is why the owners are counted
against the nodes that hold a point, and not against the nodes of the ring.

The owners of a segment, its primary owner, the snapshot and the distribution of segments are read off
the same order, so they agree.
-/

import Mathlib.Algebra.GroupWithZero.Nat
import Custody.Proofs.Ring.Determination
import Custody.Proofs.Snapshot.Origins

namespace Custody.Ring

variable {ring : Ring}

/-- The points in the order in which they are met once around the circle from a position. -/
def turn (ring : Ring) (position : Position) : List (Position × NodeId) :=
  (ring.points.filter fun point => position ≤ point.1) ++
    ring.points.filter fun point => point.1 < position

/-- The nodes in the order in which they are met first. -/
def clockwise (ring : Ring) (position : Position) : List NodeId :=
  ((ring.turn position).map (·.2)).eraseDups

/-- The nodes that hold a point. -/
def holders (ring : Ring) : List NodeId := (ring.points.map (·.2)).eraseDups

/-- Once around, each point is met once. -/
theorem turn_perm (ring : Ring) (position : Position) : (ring.turn position).Perm ring.points := by
  have hsides : (fun point : Position × NodeId => decide (point.1 < position)) =
      fun point => !decide (position ≤ point.1) := by
    funext point
    rw [← decide_not]
    exact decide_eq_decide.mpr Nat.not_le.symm
  rw [turn, hsides]
  exact List.filter_append_perm _ _

theorem mem_clockwise {position : Position} {node : NodeId} :
    node ∈ ring.clockwise position ↔ ∃ point ∈ ring.points, point.2 = node := by
  rw [clockwise, List.mem_eraseDups, List.mem_map]
  simp only [(ring.turn_perm position).mem_iff]

theorem mem_holders {node : NodeId} :
    node ∈ ring.holders ↔ ∃ point ∈ ring.points, point.2 = node := by
  rw [holders, List.mem_eraseDups, List.mem_map]

/-- From everywhere the same nodes are met, though not in the same order. -/
theorem clockwise_perm (ring : Ring) (position : Position) :
    (ring.clockwise position).Perm ring.holders := by
  refine (List.perm_ext_iff_of_nodup (nodup_eraseDups _) (nodup_eraseDups _)).mpr fun node => ?_
  exact mem_clockwise.trans mem_holders.symm

/-- A node is met where there is a point. -/
theorem clockwise_eq_nil {position : Position} :
    ring.clockwise position = [] ↔ ring.points = [] := by
  simp only [List.eq_nil_iff_forall_not_mem, mem_clockwise]
  constructor
  · exact fun hnone point hmem => hnone point.2 ⟨point, hmem, rfl⟩
  · rintro hnone node ⟨point, hmem, -⟩
    exact hnone point hmem

/-- A walk that goes on past its start meets no node for the first time there. -/
theorem Coherent.eraseDups_walk (hcoherent : ring.Coherent) (position : Position) :
    (ring.walk position).eraseDups = ring.clockwise position := by
  rw [hcoherent.walk_eq, clockwise, turn, List.map_append, List.map_append, List.eraseDups_append,
    List.eraseDups_append, List.removeAll, List.removeAll, List.filter_map, List.filter_map,
    List.filter_filter]
  congr 3
  refine List.filter_congr fun point hmem => ?_
  by_cases hbelow : point.1 < position
  · simp [hbelow]
  · have hfrom : position ≤ point.1 := Nat.le_of_not_lt hbelow
    have hmet : point.2 ∈ (ring.points.filter fun point => position ≤ point.1).map (·.2) :=
      List.mem_map.mpr ⟨point, List.mem_filter.mpr ⟨hmem, decide_eq_true hfrom⟩, rfl⟩
    simp [hbelow, hmet]

/-- The owners at a position are the first nodes that are met from it. -/
theorem Coherent.ownersAt_eq_take (hcoherent : ring.Coherent) (position : Position) {count : Nat}
    (hcount : 0 < count) :
    ring.ownersAt position count =
      (ring.clockwise position).take (min count ring.holders.length) := by
  rw [hcoherent.ownersAt_eq, hcoherent.eraseDups_walk, Nat.max_eq_left hcount,
    ← (ring.clockwise_perm position).length_eq, ← List.take_take, List.take_length]

theorem Coherent.primaryOwner_eq (hcoherent : ring.Coherent) (segment : SegmentId)
    (segmentCount : Nat) :
    ring.primaryOwner segment segmentCount =
      (ring.clockwise (segmentPosition segment segmentCount)).head? := by
  rw [primaryOwner, hcoherent.ownersAt_eq, hcoherent.eraseDups_walk, List.head?_take, if_neg]
  decide

/-- A segment is without a primary owner only where the ring has no point. -/
theorem Coherent.primaryOwner_eq_none (hcoherent : ring.Coherent) {segment segmentCount : Nat} :
    ring.primaryOwner segment segmentCount = none ↔ ring.points = [] := by
  rw [hcoherent.primaryOwner_eq, List.head?_eq_none_iff, clockwise_eq_nil]

/-- The primary owner is the first of the owners. -/
theorem Coherent.primaryOwner_eq_head? (hcoherent : ring.Coherent) (segment : SegmentId)
    (segmentCount : Nat) :
    ring.primaryOwner segment segmentCount = (ring.segmentOwners segment segmentCount).head? := by
  rw [hcoherent.primaryOwner_eq, hcoherent.segmentOwners_eq, hcoherent.eraseDups_walk,
    List.head?_take, if_neg]
  omega

/-- Where no point is missing, every node of the ring holds one. -/
theorem Complete.holders_perm (hcomplete : ring.Complete) (hcoherent : ring.Coherent)
    (hpoints : 0 < ring.pointsPerNode) : ring.holders.Perm ring.nodes := by
  refine (List.perm_ext_iff_of_nodup (nodup_eraseDups _) hcoherent.nodup_nodes).mpr fun node => ?_
  refine mem_holders.trans ⟨?_, ?_⟩
  · rintro ⟨point, hmem, rfl⟩
    exact (hcoherent.held point hmem).1
  · intro hnode
    have hfirst : pointPosition node 0 ∈ positionsOf ring.pointsPerNode node :=
      mem_positionsOf.mpr ⟨0, hpoints, rfl⟩
    exact ⟨_, hcomplete node hnode _ hfirst, rfl⟩

/-- No segment that exists is pushed back to the end of the circle. -/
theorem segmentPosition_eq {segment segmentCount : Nat} (hinside : segment < segmentCount) :
    segmentPosition segment segmentCount = lastPosition / segmentCount * segment := by
  have hroom : lastPosition / segmentCount * segment ≤ lastPosition :=
    (Nat.mul_le_mul_left _ hinside.le).trans (Nat.div_mul_le_self _ _)
  rw [segmentPosition, Nat.max_eq_left (Nat.one_le_of_lt hinside), Nat.min_eq_right hroom]

/-- Later segments sit at later positions, as long as there are not more of them than positions. -/
theorem segmentPosition_lt {earlier segment segmentCount : Nat} (hlt : earlier < segment)
    (hinside : segment < segmentCount) (hroom : segmentCount ≤ lastPosition) :
    segmentPosition earlier segmentCount < segmentPosition segment segmentCount := by
  have hwidth : 0 < lastPosition / segmentCount :=
    Nat.div_pos hroom (Nat.zero_lt_of_lt hinside)
  rw [segmentPosition_eq (hlt.trans hinside), segmentPosition_eq hinside]
  exact Nat.mul_lt_mul_of_pos_left hlt hwidth

/-- A snapshot of a ring names the primary owners of its segments, and of no others. -/
theorem Coherent.primaryOwner_snapshot (hcoherent : ring.Coherent) (topology : TopologyId)
    {segmentCount : Nat} (hsegments : 0 < segmentCount) (segment : SegmentId) :
    (ring.snapshot topology segmentCount).primaryOwner segment =
      if segment < segmentCount then ring.primaryOwner segment segmentCount else none := by
  have hcount : max segmentCount 1 = segmentCount := Nat.max_eq_left hsegments
  split
  · next hinside =>
      rw [Snapshot.primaryOwner, ownersOf_snapshot ring topology (hcount.symm ▸ hinside), hcount,
        hcoherent.primaryOwner_eq_head?]
  · next houtside =>
      have hbeyond : (ring.snapshot topology segmentCount).segmentCount ≤ segment := by
        rw [segmentCount_snapshot, hcount]
        exact Nat.le_of_not_lt houtside
      rw [Snapshot.primaryOwner, Snapshot.ownersOf_of_le hbeyond]
      rfl

section Counting

/-- Counting one more segment of a node keeps the nodes in order. -/
theorem pairwise_countNode (node : NodeId) {counts : List (NodeId × Nat)}
    (hascend : (counts.map (·.1)).Pairwise (· < ·)) :
    ((countNode node counts).map (·.1)).Pairwise (· < ·) ∧
      ∀ other, other ∈ (countNode node counts).map (·.1) ↔
        other = node ∨ other ∈ counts.map (·.1) := by
  induction counts with
  | nil => exact ⟨List.pairwise_singleton _ _, fun other => by simp [countNode]⟩
  | cons head rest ih =>
      obtain ⟨holder, count⟩ := head
      obtain ⟨hhead, hrest⟩ := List.pairwise_cons.mp hascend
      obtain ⟨hlater, hmem⟩ := ih hrest
      unfold countNode
      split
      · next hsame =>
          subst hsame
          exact ⟨hascend, fun other => by simp⟩
      · next hne =>
          split
          · next hbelow =>
              refine ⟨List.pairwise_cons.mpr ⟨fun other hother => ?_, hascend⟩,
                fun other => by simp⟩
              rcases List.mem_cons.mp hother with rfl | hother
              · exact hbelow
              · exact UInt64.lt_trans hbelow (hhead other hother)
          · next hnot =>
              have habove : holder < node := by
                refine Decidable.byContradiction fun hnone => hne ?_
                exact NodeId.eq_of_not_lt hnot hnone
              refine ⟨List.pairwise_cons.mpr ⟨fun other hother => ?_, hlater⟩, fun other => ?_⟩
              · rcases (hmem other).mp hother with rfl | hother
                · exact habove
                · exact hhead other hother
              · rw [List.map_cons, List.mem_cons, hmem, List.map_cons, List.mem_cons]
                exact or_left_comm

theorem lookup_cons_eq_ite (node other : NodeId) (count : Nat) (rest : List (NodeId × Nat)) :
    ((other, count) :: rest).lookup node = if node = other then some count else rest.lookup node := by
  by_cases hsame : node = other
  · rw [hsame, List.lookup_cons_self, if_pos rfl]
  · rw [List.lookup_cons, beq_false_of_ne hsame, if_neg hsame]

/-- One more is counted for the node, and for nobody else. -/
theorem lookup_countNode (node other : NodeId) {counts : List (NodeId × Nat)}
    (hascend : (counts.map (·.1)).Pairwise (· < ·)) :
    (countNode node counts).lookup other =
      if other = node then some ((counts.lookup node).getD 0 + 1) else counts.lookup other := by
  induction counts with
  | nil => exact lookup_cons_eq_ite other node 1 []
  | cons head rest ih =>
      obtain ⟨holder, count⟩ := head
      obtain ⟨hhead, hrest⟩ := List.pairwise_cons.mp hascend
      unfold countNode
      split
      · next hsame =>
          subst hsame
          simp only [lookup_cons_eq_ite, if_true, Option.getD_some]
          by_cases hother : other = node <;> simp only [hother, if_true, if_false]
      · next hne =>
          split
          · next hbelow =>
              -- Whoever is listed comes after the node, so it was not counted before.
              have hnone : ((holder, count) :: rest).lookup node = none := by
                refine List.lookup_eq_none_iff.mpr fun pair hmem => bne_iff_ne.mpr fun hsame => ?_
                rcases List.mem_cons.mp hmem with rfl | hlater
                · exact hne hsame
                · have hafter := hhead pair.1 (List.mem_map.mpr ⟨pair, hlater, rfl⟩)
                  exact UInt64.lt_irrefl node (UInt64.lt_trans hbelow (hsame ▸ hafter))
              rw [hnone, lookup_cons_eq_ite other node]
              rfl
          · next hnot =>
              rw [lookup_cons_eq_ite, lookup_cons_eq_ite, lookup_cons_eq_ite, if_neg hne, ih hrest]
              by_cases hother : other = holder
              · rw [if_pos hother, if_pos hother, if_neg (hother ▸ Ne.symm hne)]
              · rw [if_neg hother, if_neg hother]

theorem sum_countNode (node : NodeId) (counts : List (NodeId × Nat)) :
    ((countNode node counts).map (·.2)).sum = (counts.map (·.2)).sum + 1 := by
  induction counts with
  | nil => rfl
  | cons head rest ih =>
      unfold countNode
      split
      · simp only [List.map_cons, List.sum_cons]
        omega
      · split
        · simp only [List.map_cons, List.sum_cons]
          omega
        · simp only [List.map_cons, List.sum_cons, ih]
          omega

/-- Nodes that are counted one after the other are listed in order, each as often as it came, and in
all as often as there were any. -/
theorem counted_foldr_countNode (nodes : List NodeId) :
    ((nodes.foldr countNode []).map (·.1)).Pairwise (· < ·) ∧
      (∀ node, (nodes.foldr countNode []).lookup node =
        if nodes.count node = 0 then none else some (nodes.count node)) ∧
      ((nodes.foldr countNode []).map (·.2)).sum = nodes.length := by
  induction nodes with
  | nil => exact ⟨List.Pairwise.nil, fun _ => rfl, rfl⟩
  | cons head rest ih =>
      obtain ⟨hascend, hcounts, hsum⟩ := ih
      refine ⟨(pairwise_countNode head hascend).1, fun node => ?_, ?_⟩
      · rw [List.foldr_cons, lookup_countNode head node hascend, hcounts, hcounts]
        by_cases hsame : node = head
        · subst hsame
          by_cases hnone : rest.count node = 0 <;> simp [hnone]
        · rw [if_neg hsame, List.count_cons_of_ne (Ne.symm hsame)]
      · rw [List.foldr_cons, sum_countNode, hsum, List.length_cons]

end Counting

/-- Each node is counted as often as it is the primary owner of a segment in the snapshot. -/
theorem Coherent.count_primaryOwners (hcoherent : ring.Coherent) (topology : TopologyId)
    {segmentCount : Nat} (hsegments : 0 < segmentCount) (node : NodeId) :
    ((List.range segmentCount).filterMap fun segment =>
        ring.primaryOwner segment segmentCount).count node =
      ((ring.snapshot topology segmentCount).primarySegments node).size := by
  rw [(hcoherent.valid_snapshot topology segmentCount).primarySegments_eq, segmentCount_snapshot,
    Nat.max_eq_left hsegments, List.count_filterMap, List.countP_eq_length_filter, SegmentSet.size,
    SegmentSet.below]
  congr 1
  refine List.filter_congr fun segment hmem => ?_
  rw [hcoherent.primaryOwner_snapshot topology hsegments, if_pos (List.mem_range.mp hmem)]
  exact beq_eq_decide _ _

/-- Every segment has a primary owner as soon as the ring has a point. -/
theorem Coherent.length_primaryOwners (hcoherent : ring.Coherent) (segmentCount : Nat) :
    ((List.range segmentCount).filterMap fun segment =>
        ring.primaryOwner segment segmentCount).length =
      if ring.points = [] then 0 else segmentCount := by
  split
  · next hnone =>
      rw [List.length_eq_zero_iff, List.filterMap_eq_nil_iff]
      exact fun segment _ => hcoherent.primaryOwner_eq_none.mpr hnone
  · next hsome =>
      rw [List.filterMap_length_eq_length.mpr fun segment _ =>
        Option.isSome_iff_ne_none.mpr fun hnobody =>
          hsome (hcoherent.primaryOwner_eq_none.mp hnobody)]
      exact List.length_range

/-- After any history, whether points collided or not: the owners of a segment are the first nodes
that are met clockwise from its position, as many as the ring asks for or as hold a point, and the first
of them is the primary owner; where the points of all nodes that ever joined are apart, every node of
the ring holds a point.  Segments sit at different positions, in order.  A snapshot names the same
primary owners, and the distribution counts for each node its segments in a snapshot, which are all
segments as soon as there is a point. -/
theorem after_selects_clockwise (numOwners pointsPerNode : Nat) (changes : List RingChange)
    {ring : Ring} (hring : (empty numOwners pointsPerNode).after changes = ring)
    {segmentCount : Nat} (hsegments : 0 < segmentCount) :
    (PointsAscend ring.points ∧ ∀ segment,
      ring.segmentOwners segment segmentCount =
        (ring.clockwise (segmentPosition segment segmentCount)).take
          (min ring.numOwners ring.holders.length) ∧
      ring.primaryOwner segment segmentCount =
        (ring.segmentOwners segment segmentCount).head?) ∧
    (PointsApart (max pointsPerNode 1) (joined changes) → ∀ segment,
      (ring.segmentOwners segment segmentCount).Nodup ∧
        (ring.segmentOwners segment segmentCount).length =
          min ring.numOwners ring.nodes.length) ∧
    (∀ segment < segmentCount,
      segmentPosition segment segmentCount = lastPosition / segmentCount * segment ∧
      (segmentCount ≤ lastPosition → ∀ earlier < segment,
        segmentPosition earlier segmentCount < segmentPosition segment segmentCount)) ∧
    ∀ topology,
      (∀ segment, (ring.snapshot topology segmentCount).primaryOwner segment =
        if segment < segmentCount then ring.primaryOwner segment segmentCount else none) ∧
      ((ring.distribution segmentCount).map (·.1)).Pairwise (· < ·) ∧
      (∀ node, (ring.distribution segmentCount).lookup node =
        if ((ring.snapshot topology segmentCount).primarySegments node).size = 0 then none
        else some ((ring.snapshot topology segmentCount).primarySegments node).size) ∧
      ((ring.distribution segmentCount).map (·.2)).sum =
        if ring.points = [] then 0 else segmentCount := by
  have hcoherent := (coherent_empty numOwners pointsPerNode).after changes
  have hcomplete : PointsApart (max pointsPerNode 1) (joined changes) →
      ((empty numOwners pointsPerNode).after changes).Complete := complete_after numOwners
  have howners := numOwners_after (empty numOwners pointsPerNode) changes
  have hpointsPerNode := pointsPerNode_after (empty numOwners pointsPerNode) changes
  rw [hring] at hcoherent hcomplete howners hpointsPerNode
  have hwanted : 0 < ring.numOwners := howners ▸ Nat.lt_of_lt_of_le Nat.one_pos (Nat.le_max_right _ _)
  have hheld : 0 < ring.pointsPerNode :=
    hpointsPerNode ▸ Nat.lt_of_lt_of_le Nat.one_pos (Nat.le_max_right _ _)
  obtain ⟨hascend, hcounts, hsum⟩ := counted_foldr_countNode
    ((List.range segmentCount).filterMap fun segment => ring.primaryOwner segment segmentCount)
  refine ⟨⟨hcoherent.pointsAscend, fun segment =>
      ⟨hcoherent.ownersAt_eq_take _ hwanted, hcoherent.primaryOwner_eq_head? segment _⟩⟩,
    fun hapart segment => ⟨hcoherent.nodup_segmentOwners segment _, ?_⟩,
    fun segment hinside => ⟨segmentPosition_eq hinside, fun hroom earlier hlt =>
      segmentPosition_lt hlt hinside hroom⟩,
    fun topology => ⟨hcoherent.primaryOwner_snapshot topology hsegments, hascend, fun node => ?_, ?_⟩⟩
  · rw [segmentOwners, hcoherent.ownersAt_eq_take _ hwanted, List.length_take,
      (ring.clockwise_perm _).length_eq, Nat.min_assoc, Nat.min_self,
      ((hcomplete hapart).holders_perm hcoherent hheld).length_eq]
  · rw [← hcoherent.count_primaryOwners topology hsegments]
    exact hcounts node
  · rw [← hcoherent.length_primaryOwners]
    exact hsum

/-- Three nodes join, the second leaves, and a fourth takes its place. -/
def secondReplaced : List RingChange := [.join 1, .join 2, .join 3, .leave 2, .join 4]

/-- The walk from the last of eight segments goes past the end of the circle, and the three nodes share
all eight. -/
theorem after_selects_clockwise_secondReplaced :
    0 < 8 ∧ 8 ≤ lastPosition ∧ PointsApart 2 (joined secondReplaced) ∧
      ((empty 2 2).after secondReplaced).clockwise (segmentPosition 7 8) = [4, 1, 3] ∧
      ((empty 2 2).after secondReplaced).segmentOwners 7 8 = [4, 1] ∧
      (((empty 2 2).after secondReplaced).segmentOwners 7 8).Nodup ∧
      segmentPosition 6 8 < segmentPosition 7 8 ∧
      (((empty 2 2).after secondReplaced).snapshot 5 8).primaryOwner 7 = some 4 ∧
      ((empty 2 2).after secondReplaced).distribution 8 = [(1, 1), (3, 4), (4, 3)] ∧
      ((((empty 2 2).after secondReplaced).distribution 8).map (·.2)).sum = 8 := by
  have hapart : PointsApart 2 (joined secondReplaced) := by decide +kernel
  have hroom : 8 ≤ lastPosition := by decide
  have hmet : ((empty 2 2).after secondReplaced).clockwise (segmentPosition 7 8) = [4, 1, 3] := by
    decide +kernel
  have hheld : min ((empty 2 2).after secondReplaced).numOwners
      ((empty 2 2).after secondReplaced).holders.length = 2 := by decide +kernel
  have hpoints : ((empty 2 2).after secondReplaced).points ≠ [] := by decide +kernel
  obtain ⟨⟨-, howners⟩, hdistinct, hpositions, hpaths⟩ :=
    after_selects_clockwise 2 2 secondReplaced rfl (by decide : 0 < 8)
  obtain ⟨hfirst, hprimary⟩ := howners 7
  obtain ⟨hsnapshot, -, -, hsum⟩ := hpaths 5
  rw [hmet, hheld] at hfirst
  have hlast := hsnapshot 7
  rw [if_pos (by decide), hprimary, hfirst] at hlast
  rw [if_neg hpoints] at hsum
  exact ⟨by decide, hroom, hapart, hmet, hfirst, (hdistinct hapart 7).1,
    (hpositions 7 (by decide)).2 hroom 6 (by decide), hlast, by decide +kernel, hsum⟩

end Custody.Ring
