/-
# A ring depends on its nodes alone

A node is on a ring when the last thing it did was to join.  Where the points of all nodes that ever
joined are apart, nothing else of the history is left: the circle carries each point of each node
once, and the ring is that to which the same nodes are added anew, in any order.  So nodes that learn
of the same members by different ways place every segment alike, and a node that joins and leaves
again leaves no trace.
-/

import Mathlib.Data.List.Induction
import Mathlib.Data.List.Nodup
import Custody.Proofs.Ring.Points

namespace Custody

namespace Ring

variable {ring : Ring} {node : NodeId}

theorem after_append (ring : Ring) (first second : List RingChange) :
    ring.after (first ++ second) = (ring.after first).after second := List.foldl_append

theorem pointsPerNode_after (ring : Ring) (changes : List RingChange) :
    (ring.after changes).pointsPerNode = ring.pointsPerNode := by
  induction changes generalizing ring with
  | nil => rfl
  | cons change changes ih => cases change <;> exact (ih _).trans (by simp [Ring.change])

theorem numOwners_after (ring : Ring) (changes : List RingChange) :
    (ring.after changes).numOwners = ring.numOwners := by
  induction changes generalizing ring with
  | nil => rfl
  | cons change changes ih => cases change <;> exact (ih _).trans (by simp [Ring.change])

/-- Adding nodes one after the other is a history in which they join. -/
theorem addAll_eq_after (ring : Ring) (nodes : List NodeId) :
    ring.addAll nodes = ring.after (nodes.map .join) := by
  rw [addAll, after, List.foldl_map]
  rfl

theorem joined_map_join (nodes : List NodeId) : joined (nodes.map .join) = nodes := by
  rw [joined, List.filterMap_map]
  exact List.filterMap_some

theorem mem_nodes_addAll {nodes : List NodeId} :
    node ∈ (ring.addAll nodes).nodes ↔ node ∈ ring.nodes ∨ node ∈ nodes := by
  induction nodes generalizing ring with
  | nil => simp [addAll]
  | cons head nodes ih =>
      refine ih.trans ?_
      rw [mem_nodes_add, List.mem_cons, or_comm (a := node = head), or_assoc]

/-- A node is on a ring when its last change was to join. -/
theorem mem_nodes_after (numOwners pointsPerNode : Nat) (changes : List RingChange) :
    node ∈ ((empty numOwners pointsPerNode).after changes).nodes ↔
      (changes.filter (·.node = node)).getLast? = some (.join node) := by
  induction changes using List.reverseRecOn with
  | nil => simp [after, empty]
  | append_singleton changes last ih =>
      rw [after_append, List.filter_append]
      by_cases hnode : last.node = node
      · rw [List.filter_cons_of_pos (by simpa using hnode), List.filter_nil,
          List.getLast?_append, List.getLast?_singleton, Option.some_or]
        cases last with
        | join joining =>
            obtain rfl : joining = node := hnode
            exact iff_of_true (mem_nodes_add.mpr (Or.inl rfl)) rfl
        | leave leaving =>
            obtain rfl : leaving = node := hnode
            exact iff_of_false (fun hmem => (mem_nodes_remove.mp hmem).2 rfl) nofun
      · rw [List.filter_cons_of_neg (by simpa using hnode), List.filter_nil, List.append_nil, ← ih]
        cases last with
        | join joining =>
            exact mem_nodes_add.trans (or_iff_right fun hsame => hnode hsame.symm)
        | leave leaving =>
            exact mem_nodes_remove.trans (and_iff_left fun hsame => hnode hsame.symm)

/-- Every node on a ring has joined. -/
theorem nodes_subset_joined (numOwners pointsPerNode : Nat) (changes : List RingChange) :
    ((empty numOwners pointsPerNode).after changes).nodes ⊆ joined changes := by
  intro node hmem
  have hlast := List.mem_of_getLast? ((mem_nodes_after numOwners pointsPerNode changes).mp hmem)
  exact List.mem_filterMap.mpr ⟨_, (List.mem_filter.mp hlast).1, rfl⟩

/-- No point is lost while the points of all nodes that were there or joined are apart. -/
theorem Complete.after {changes : List RingChange} (hcomplete : ring.Complete)
    (hcoherent : ring.Coherent)
    (hapart : PointsApart ring.pointsPerNode (ring.nodes ++ joined changes)) :
    (ring.after changes).Complete := by
  induction changes generalizing ring with
  | nil => exact hcomplete
  | cons change changes ih =>
      cases change with
      | join joining =>
          have hall : joining :: ring.nodes ⊆ ring.nodes ++ joined (.join joining :: changes) :=
            List.cons_subset.mpr ⟨by simp [joined, RingChange.joining],
              List.subset_append_left _ _⟩
          refine ih (hcomplete.add hcoherent (hapart.of_subset hall)) (hcoherent.add joining) ?_
          refine (pointsPerNode_add ring joining).symm ▸ hapart.of_subset ?_
          refine List.append_subset.mpr ⟨fun node hmem => ?_, fun node hmem => ?_⟩
          · exact hall (List.mem_cons.mpr (mem_nodes_add.mp hmem))
          · exact List.mem_append_right _ (List.mem_cons_of_mem _ hmem)
      | leave leaving =>
          refine ih (hcomplete.remove (hapart.of_subset (List.subset_append_left _ _)))
            (hcoherent.remove leaving) ?_
          refine (pointsPerNode_remove ring leaving).symm ▸ hapart.of_subset ?_
          refine List.append_subset.mpr ⟨fun node hmem => ?_, List.subset_append_right _ _⟩
          exact List.mem_append_left _ (mem_nodes_remove.mp hmem).1

/-- A ring that comes about from nothing has all points of its nodes. -/
theorem complete_after (numOwners : Nat) {pointsPerNode : Nat} {changes : List RingChange}
    (hapart : PointsApart (max pointsPerNode 1) (joined changes)) :
    ((empty numOwners pointsPerNode).after changes).Complete :=
  Complete.after (fun _ hmem => nomatch hmem) (coherent_empty numOwners pointsPerNode) hapart

/-- A new node that joins and leaves again leaves no trace. -/
theorem Coherent.remove_add (hcoherent : ring.Coherent) (hnew : node ∉ ring.nodes)
    (hapart : PointsApart ring.pointsPerNode (node :: ring.nodes)) :
    (ring.add node).remove node = ring := by
  refine ((hcoherent.add node).remove node).ext hcoherent (by simp) (by simp) (fun other => ?_)
    fun point => ?_
  · rw [mem_nodes_remove, mem_nodes_add]
    constructor
    · rintro ⟨rfl | hold, hne⟩
      · exact absurd rfl hne
      · exact hold
    · exact fun hold => ⟨Or.inr hold, fun hsame => hnew (hsame ▸ hold)⟩
  · rw [mem_points_remove (mem_nodes_add.mpr (Or.inl rfl)), hcoherent.mem_points_add hnew,
      pointsPerNode_add]
    constructor
    · rintro ⟨⟨hown, -⟩ | ⟨hold, -⟩, hnot⟩
      · exact absurd hown hnot
      · exact hold
    · intro hold
      have hfree := hcoherent.not_shared hnew hapart hold
      exact ⟨Or.inr ⟨hold, hfree⟩, hfree⟩

/-- Points that are apart are so beside what a node leaves behind. -/
theorem PointsApart.cons_remove (hapart : PointsApart ring.pointsPerNode ring.nodes)
    (hthere : node ∈ ring.nodes) :
    PointsApart (ring.remove node).pointsPerNode (node :: (ring.remove node).nodes) := by
  rw [pointsPerNode_remove]
  exact hapart.of_subset
    (List.cons_subset.mpr ⟨hthere, fun other hmem => (mem_nodes_remove.mp hmem).1⟩)

/-- A node that leaves and comes back is where it was. -/
theorem Complete.add_remove (hcomplete : ring.Complete) (hcoherent : ring.Coherent)
    (hthere : node ∈ ring.nodes) (hapart : PointsApart ring.pointsPerNode ring.nodes) :
    (ring.remove node).add node = ring := by
  have hleft := hcoherent.remove node
  have hgone : (ring.remove node).Complete := hcomplete.remove hapart
  have hback : ((ring.remove node).add node).Complete :=
    hgone.add hleft (hapart.cons_remove hthere)
  refine hback.ext hcomplete (hleft.add node) hcoherent (by simp) (by simp) fun other => ?_
  rw [mem_nodes_add, mem_nodes_remove]
  constructor
  · rintro (rfl | ⟨hold, -⟩)
    · exact hthere
    · exact hold
  · intro hold
    by_cases hsame : other = node
    · exact Or.inl hsame
    · exact Or.inr ⟨hold, hsame⟩

/-- The points of some nodes, node by node. -/
def pointsOf (pointsPerNode : Nat) (nodes : List NodeId) : List (Position × NodeId) :=
  nodes.flatMap fun node =>
    (List.range pointsPerNode).map fun index => (pointPosition node index, node)

theorem mem_pointsOf {pointsPerNode : Nat} {nodes : List NodeId} {point : Position × NodeId} :
    point ∈ pointsOf pointsPerNode nodes ↔
      point.2 ∈ nodes ∧ point.1 ∈ positionsOf pointsPerNode point.2 := by
  rw [pointsOf, List.mem_flatMap, mem_positionsOf]
  constructor
  · rintro ⟨node, hnode, hmem⟩
    obtain ⟨index, hindex, rfl⟩ := List.mem_map.mp hmem
    exact ⟨hnode, index, List.mem_range.mp hindex, rfl⟩
  · rintro ⟨hnode, index, hindex, hposition⟩
    exact ⟨point.2, hnode, List.mem_map.mpr
      ⟨index, List.mem_range.mpr hindex, Prod.ext hposition rfl⟩⟩

/-- Points that are apart are listed once each. -/
theorem PointsApart.nodup_pointsOf {pointsPerNode : Nat} {nodes : List NodeId}
    (hapart : PointsApart pointsPerNode nodes) (hnodup : nodes.Nodup) :
    (pointsOf pointsPerNode nodes).Nodup := by
  refine List.nodup_flatMap.mpr ⟨fun node hnode => ?_, ?_⟩
  · refine List.nodup_range.map_on fun index hindex other hother hsame => ?_
    exact (hapart node hnode node hnode index (List.mem_range.mp hindex) other
      (List.mem_range.mp hother) (Prod.mk.inj hsame).1).2
  · refine hnodup.imp fun {first second} hne => ?_
    intro point hfirst hsecond
    obtain ⟨index, -, rfl⟩ := List.mem_map.mp hfirst
    obtain ⟨other, -, hsame⟩ := List.mem_map.mp hsecond
    exact hne (Prod.mk.inj hsame).2.symm

/-- The circle carries each point of each node once. -/
theorem Complete.points_perm (hcomplete : ring.Complete) (hcoherent : ring.Coherent)
    (hapart : PointsApart ring.pointsPerNode ring.nodes) :
    ring.points.Perm (pointsOf ring.pointsPerNode ring.nodes) := by
  have hpoints : ring.points.Nodup :=
    hcoherent.pointsAscend.imp fun hlt hsame => Nat.ne_of_lt hlt (congrArg Prod.fst hsame)
  refine (List.perm_ext_iff_of_nodup hpoints
    (hapart.nodup_pointsOf hcoherent.nodup_nodes)).mpr fun point => ?_
  rw [hcomplete.mem_points hcoherent, mem_pointsOf]

/-- The nodes that are on a ring in the end give the ring when they are added anew, in any order. -/
theorem addAll_nodes_after (numOwners : Nat) {pointsPerNode : Nat} {changes : List RingChange}
    (hapart : PointsApart (max pointsPerNode 1) (joined changes)) {nodes : List NodeId}
    (hmem : ∀ node, node ∈ nodes ↔ node ∈ ((empty numOwners pointsPerNode).after changes).nodes) :
    (empty numOwners pointsPerNode).addAll nodes =
      (empty numOwners pointsPerNode).after changes := by
  have hcoherent := coherent_empty numOwners pointsPerNode
  have hjoined : joined (nodes.map .join) ⊆ joined changes := by
    rw [joined_map_join]
    exact fun node hnode =>
      nodes_subset_joined numOwners pointsPerNode changes ((hmem node).mp hnode)
  rw [addAll_eq_after]
  refine (complete_after numOwners (hapart.of_subset hjoined)).ext (complete_after numOwners hapart)
    (hcoherent.after _) (hcoherent.after _) ?_ ?_ fun node => ?_
  · rw [pointsPerNode_after, pointsPerNode_after]
  · rw [numOwners_after, numOwners_after]
  · rw [← addAll_eq_after, mem_nodes_addAll, hmem]
    exact or_iff_right List.not_mem_nil

/-- After any history in which the points of all nodes that ever joined are apart, the nodes of the
ring are those that joined last, in order, and the circle carries each of their points once.  The ring,
with all its snapshots, is that to which those nodes are added anew in any order, and a new node that
joins and leaves again leaves it as it was. -/
theorem after_determined (numOwners pointsPerNode : Nat) (changes : List RingChange)
    (hapart : PointsApart (max pointsPerNode 1) (joined changes)) {ring : Ring}
    (hring : (empty numOwners pointsPerNode).after changes = ring) :
    (ring.nodes.Pairwise (· < ·) ∧ ∀ node, node ∈ ring.nodes ↔
      (changes.filter (·.node = node)).getLast? = some (.join node)) ∧
    (PointsAscend ring.points ∧ ring.points.Perm (ring.nodes.flatMap fun node =>
      (List.range (max pointsPerNode 1)).map fun index => (pointPosition node index, node))) ∧
    (∀ nodes : List NodeId, (∀ node, node ∈ nodes ↔ node ∈ ring.nodes) →
      (empty numOwners pointsPerNode).addAll nodes = ring ∧
      ∀ topology segmentCount,
        ((empty numOwners pointsPerNode).addAll nodes).snapshot topology segmentCount =
          ring.snapshot topology segmentCount) ∧
    ∀ node ∉ ring.nodes, PointsApart (max pointsPerNode 1) (node :: joined changes) →
      (ring.add node).remove node = ring := by
  subst hring
  have hcoherent := (coherent_empty numOwners pointsPerNode).after changes
  have hcomplete := complete_after numOwners hapart
  have hsubset := nodes_subset_joined numOwners pointsPerNode changes
  have hsame : ∀ nodes : List NodeId,
      (∀ node, node ∈ nodes ↔ node ∈ ((empty numOwners pointsPerNode).after changes).nodes) →
        (empty numOwners pointsPerNode).addAll nodes =
          (empty numOwners pointsPerNode).after changes :=
    fun _ hmem => addAll_nodes_after numOwners hapart hmem
  have hpointsPerNode : ((empty numOwners pointsPerNode).after changes).pointsPerNode =
      max pointsPerNode 1 := pointsPerNode_after _ changes
  refine ⟨⟨hcoherent.nodesAscend, fun node => mem_nodes_after numOwners pointsPerNode changes⟩,
    ⟨hcoherent.pointsAscend, ?_⟩,
    fun nodes hmem => ⟨hsame nodes hmem, fun topology segmentCount => by rw [hsame nodes hmem]⟩,
    fun node hnew hmore => ?_⟩
  · rw [← hpointsPerNode] at hapart ⊢
    exact hcomplete.points_perm hcoherent (hapart.of_subset hsubset)
  · rw [← hpointsPerNode] at hmore
    exact hcoherent.remove_add hnew (hmore.of_subset (List.cons_subset_cons _ hsubset))

/-- The third node leaves and comes back, the second is there for a while, and the seventh leaves
without having joined. -/
def comingsAndGoings : List RingChange :=
  [.join 3, .join 1, .join 1, .leave 3, .leave 7, .join 2, .join 3, .leave 2]

/-- What is left is the ring of the first and the third node. -/
theorem after_determined_comingsAndGoings :
    PointsApart 2 (joined comingsAndGoings) ∧ PointsApart 2 (5 :: joined comingsAndGoings) ∧
      (empty 2 2).addAll [3, 1] = (empty 2 2).after comingsAndGoings ∧
      (((empty 2 2).after comingsAndGoings).add 5).remove 5 =
        (empty 2 2).after comingsAndGoings := by
  have hapart : PointsApart 2 (joined comingsAndGoings) := by decide +kernel
  have hmore : PointsApart 2 (5 :: joined comingsAndGoings) := by decide +kernel
  have hnodes : ((empty 2 2).after comingsAndGoings).nodes = [1, 3] := by decide +kernel
  obtain ⟨-, -, hanew, hundone⟩ := after_determined 2 2 comingsAndGoings hapart rfl
  refine ⟨hapart, hmore, (hanew [3, 1] fun node => ?_).1, hundone 5 ?_ hmore⟩
  · rw [hnodes, List.mem_pair, List.mem_pair, or_comm]
  · rw [hnodes]
    decide

end Ring

end Custody
