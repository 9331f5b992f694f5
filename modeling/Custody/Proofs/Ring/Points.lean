/-
# The points of a ring

Whatever joins and leaves, the nodes of a ring ascend, its points ascend by their positions, and
every point is held by a node of the ring at a position of that node.  This needs nothing of the hash:
a point that changed hands is taken off with either of the two nodes.  What a collision can cost is a
point that is missing.  Where the points of all nodes that ever joined are apart none is missing, so
that the ring is determined by its nodes: it is the same however they came to be there, and taking off
a node that was just put on changes nothing.
-/

import Mathlib.Data.List.Sort
import Custody.Proofs.Snapshot
import Custody.Ring.History

namespace Custody.Ring

/-- Points in the order of their positions, one at a position. -/
def PointsAscend (points : List (Position × NodeId)) : Prop :=
  points.Pairwise fun point other => point.1 < other.1

/-- Two circles with the same points are equal. -/
theorem PointsAscend.ext {first second : List (Position × NodeId)} (hfirst : PointsAscend first)
    (hsecond : PointsAscend second) (hsame : ∀ point, point ∈ first ↔ point ∈ second) :
    first = second := by
  have : Std.Irrefl fun point other : Position × NodeId => point.1 < other.1 :=
    ⟨fun point => Nat.lt_irrefl point.1⟩
  have : Std.Antisymm fun point other : Position × NodeId => point.1 < other.1 :=
    ⟨fun _ _ hlt hgt => absurd hlt (Nat.lt_asymm hgt)⟩
  exact List.Pairwise.eq_of_mem_iff hfirst hsecond hsame

section Circle

variable {points : List (Position × NodeId)} {position : Position} {node : NodeId}
  {point : Position × NodeId}

/-- A point that was put on the circle is there, and so are those at other positions. -/
theorem mem_putPoint (hascend : PointsAscend points) :
    point ∈ putPoint position node points ↔
      point = (position, node) ∨ point ∈ points ∧ point.1 ≠ position := by
  induction points with
  | nil => simp [putPoint]
  | cons head rest ih =>
      obtain ⟨hhead, hrest⟩ := List.pairwise_cons.mp hascend
      unfold putPoint
      split
      · next hbelow =>
          have hother : ∀ point ∈ head :: rest, point.1 ≠ position := by
            intro point hmem
            rcases List.mem_cons.mp hmem with rfl | hmem
            · exact Nat.ne_of_gt hbelow
            · exact Nat.ne_of_gt (Nat.lt_trans hbelow (hhead point hmem))
          rw [List.mem_cons]
          exact or_congr_right ⟨fun hmem => ⟨hmem, hother point hmem⟩, And.left⟩
      · split
        · next habove =>
            rw [List.mem_cons, ih hrest, List.mem_cons]
            constructor
            · rintro (rfl | rfl | ⟨hmem, hne⟩)
              · exact Or.inr ⟨Or.inl rfl, Nat.ne_of_lt habove⟩
              · exact Or.inl rfl
              · exact Or.inr ⟨Or.inr hmem, hne⟩
            · rintro (rfl | ⟨rfl | hmem, hne⟩)
              · exact Or.inr (Or.inl rfl)
              · exact Or.inl rfl
              · exact Or.inr (Or.inr ⟨hmem, hne⟩)
        · next hbelow habove =>
            have hsame : head.1 = position :=
              Nat.le_antisymm (Nat.le_of_not_lt hbelow) (Nat.le_of_not_lt habove)
            rw [List.mem_cons, List.mem_cons]
            refine or_congr_right ⟨fun hmem => ?_, ?_⟩
            · exact ⟨Or.inr hmem, Nat.ne_of_gt (hsame ▸ hhead point hmem)⟩
            · rintro ⟨rfl | hmem, hne⟩
              · exact absurd hsame hne
              · exact hmem

/-- Putting a point on the circle keeps the order. -/
theorem PointsAscend.putPoint (hascend : PointsAscend points) :
    PointsAscend (putPoint position node points) := by
  induction points with
  | nil => exact List.pairwise_singleton _ _
  | cons head rest ih =>
      obtain ⟨hhead, hrest⟩ := List.pairwise_cons.mp hascend
      unfold Ring.putPoint
      split
      · next hbelow =>
          refine List.pairwise_cons.mpr ⟨fun point hmem => ?_, hascend⟩
          rcases List.mem_cons.mp hmem with rfl | hmem
          · exact hbelow
          · exact Nat.lt_trans hbelow (hhead point hmem)
      · split
        · next habove =>
            refine List.pairwise_cons.mpr ⟨fun point hmem => ?_, ih hrest⟩
            rcases (mem_putPoint hrest).mp hmem with rfl | ⟨hmem, -⟩
            · exact habove
            · exact hhead point hmem
        · next hbelow habove =>
            have hsame : head.1 = position :=
              Nat.le_antisymm (Nat.le_of_not_lt hbelow) (Nat.le_of_not_lt habove)
            exact List.pairwise_cons.mpr ⟨fun point hmem => hsame ▸ hhead point hmem, hrest⟩

/-- Taking points off the circle leaves those at other positions. -/
theorem foldl_takePoint (positions : List Position) (points : List (Position × NodeId)) :
    positions.foldl (fun points position => takePoint position points) points =
      points.filter fun point => point.1 ∉ positions := by
  induction positions generalizing points with
  | nil => simp
  | cons position positions ih =>
      rw [List.foldl_cons, ih, takePoint, List.filter_filter]
      refine List.filter_congr fun point _ => ?_
      simp [not_or, Bool.and_comm]

/-- Putting points of one node on the circle keeps the order; those points are there, and so are
those at other positions. -/
theorem foldl_putPoint (positions : List Position) {points : List (Position × NodeId)}
    (hascend : PointsAscend points) :
    PointsAscend (positions.foldl (fun points position => putPoint position node points) points) ∧
      ∀ point, point ∈ positions.foldl (fun points position => putPoint position node points)
          points ↔
        point.1 ∈ positions ∧ point.2 = node ∨ point ∈ points ∧ point.1 ∉ positions := by
  induction positions generalizing points with
  | nil => exact ⟨hascend, fun point => by simp⟩
  | cons position positions ih =>
      have hnext : PointsAscend (putPoint position node points) := hascend.putPoint
      obtain ⟨hafter, hmem⟩ := ih hnext
      refine ⟨hafter, fun point => (hmem point).trans ?_⟩
      rw [mem_putPoint hascend, List.mem_cons, not_or]
      constructor
      · rintro (⟨hthere, hholder⟩ | ⟨rfl | ⟨hold, hne⟩, hnot⟩)
        · exact Or.inl ⟨Or.inr hthere, hholder⟩
        · exact Or.inl ⟨Or.inl rfl, rfl⟩
        · exact Or.inr ⟨hold, hne, hnot⟩
      · rintro (⟨rfl | hthere, rfl⟩ | ⟨hold, hne, hnot⟩)
        · by_cases hagain : point.1 ∈ positions
          · exact Or.inl ⟨hagain, rfl⟩
          · exact Or.inr ⟨Or.inl rfl, hagain⟩
        · exact Or.inl ⟨hthere, rfl⟩
        · exact Or.inr ⟨Or.inr ⟨hold, hne⟩, hnot⟩

end Circle

/-- The positions of the points of a node. -/
def positionsOf (pointsPerNode : Nat) (node : NodeId) : List Position :=
  (List.range pointsPerNode).map (pointPosition node)

theorem mem_positionsOf {pointsPerNode : Nat} {node : NodeId} {position : Position} :
    position ∈ positionsOf pointsPerNode node ↔
      ∃ index < pointsPerNode, pointPosition node index = position := by
  simp [positionsOf]

/-- Where the points of two nodes are apart, a position belongs to one of them. -/
theorem PointsApart.eq_of_mem {pointsPerNode : Nat} {nodes : List NodeId}
    (hapart : PointsApart pointsPerNode nodes) {first second : NodeId} (hfirst : first ∈ nodes)
    (hsecond : second ∈ nodes) {position : Position}
    (hmem : position ∈ positionsOf pointsPerNode first)
    (hother : position ∈ positionsOf pointsPerNode second) : first = second := by
  obtain ⟨index, hindex, rfl⟩ := mem_positionsOf.mp hmem
  obtain ⟨other, hlt, hsame⟩ := mem_positionsOf.mp hother
  exact (hapart first hfirst second hsecond index hindex other hlt hsame.symm).1

variable {ring : Ring} {node : NodeId}

theorem contains_eq_true : ring.contains node = true ↔ node ∈ ring.nodes := List.contains_iff_mem

/-- A node that is there is not added again. -/
theorem add_of_mem (hthere : node ∈ ring.nodes) : ring.add node = ring :=
  if_pos (contains_eq_true.mpr hthere)

/-- A node that is not there is not removed. -/
theorem remove_of_not_mem (hnew : node ∉ ring.nodes) : ring.remove node = ring :=
  if_neg fun hcontains => hnew (contains_eq_true.mp hcontains)

/-- A node that is added is put on with all its points. -/
theorem add_of_not_mem (hnew : node ∉ ring.nodes) :
    ring.add node =
      { ring with
        nodes := Ascending.insert node ring.nodes
        points := (positionsOf ring.pointsPerNode node).foldl
          (fun points position => putPoint position node points) ring.points } := by
  rw [add, if_neg fun hcontains => hnew (contains_eq_true.mp hcontains), positionsOf,
    List.foldl_map]

/-- A node that is removed is taken off with whatever is at its positions. -/
theorem remove_of_mem (hthere : node ∈ ring.nodes) :
    ring.remove node =
      { ring with
        nodes := ring.nodes.filter (· ≠ node)
        points := ring.points.filter fun point =>
          point.1 ∉ positionsOf ring.pointsPerNode node } := by
  rw [remove, if_pos (contains_eq_true.mpr hthere), ← foldl_takePoint, positionsOf,
    List.foldl_map]

@[simp] theorem pointsPerNode_add (ring : Ring) (node : NodeId) :
    (ring.add node).pointsPerNode = ring.pointsPerNode := by
  unfold add
  split <;> rfl

@[simp] theorem pointsPerNode_remove (ring : Ring) (node : NodeId) :
    (ring.remove node).pointsPerNode = ring.pointsPerNode := by
  unfold remove
  split <;> rfl

@[simp] theorem numOwners_add (ring : Ring) (node : NodeId) :
    (ring.add node).numOwners = ring.numOwners := by
  unfold add
  split <;> rfl

@[simp] theorem numOwners_remove (ring : Ring) (node : NodeId) :
    (ring.remove node).numOwners = ring.numOwners := by
  unfold remove
  split <;> rfl

/-- The nodes after one was added. -/
theorem mem_nodes_add {other : NodeId} :
    other ∈ (ring.add node).nodes ↔ other = node ∨ other ∈ ring.nodes := by
  by_cases hthere : node ∈ ring.nodes
  · rw [add_of_mem hthere]
    exact ⟨Or.inr, fun h => h.elim (fun hsame => hsame ▸ hthere) id⟩
  · rw [add_of_not_mem hthere]
    exact Ascending.mem_insert fun _ _ => NodeId.eq_of_not_lt

/-- The nodes after one was removed. -/
theorem mem_nodes_remove {other : NodeId} :
    other ∈ (ring.remove node).nodes ↔ other ∈ ring.nodes ∧ other ≠ node := by
  by_cases hthere : node ∈ ring.nodes
  · rw [remove_of_mem hthere]
    simp
  · rw [remove_of_not_mem hthere]
    exact ⟨fun hmem => ⟨hmem, fun hsame => hthere (hsame ▸ hmem)⟩, And.left⟩

/-- A ring in order: its nodes and points ascend, and every point is held by one of its nodes at a
position of that node. -/
structure Coherent (ring : Ring) : Prop where
  nodesAscend : ring.nodes.Pairwise (· < ·)
  pointsAscend : PointsAscend ring.points
  held : ∀ point ∈ ring.points,
    point.2 ∈ ring.nodes ∧ point.1 ∈ positionsOf ring.pointsPerNode point.2

/-- A ring in order lists no node twice. -/
theorem Coherent.nodup_nodes (hcoherent : ring.Coherent) : ring.nodes.Nodup := by
  refine hcoherent.nodesAscend.imp ?_
  rintro node _ hlt rfl
  exact UInt64.lt_irrefl node hlt

theorem coherent_empty (numOwners pointsPerNode : Nat) :
    (empty numOwners pointsPerNode).Coherent :=
  ⟨List.Pairwise.nil, List.Pairwise.nil, fun _ hmem => nomatch hmem⟩

/-- No point is at a position of a new node whose points are apart from the others. -/
theorem Coherent.not_shared (hcoherent : ring.Coherent) (hnew : node ∉ ring.nodes)
    (hapart : PointsApart ring.pointsPerNode (node :: ring.nodes)) {point : Position × NodeId}
    (hmem : point ∈ ring.points) : point.1 ∉ positionsOf ring.pointsPerNode node := by
  intro hshared
  obtain ⟨hholder, hposition⟩ := hcoherent.held point hmem
  have hsame : node = point.2 :=
    hapart.eq_of_mem List.mem_cons_self (List.mem_cons_of_mem _ hholder) hshared hposition
  exact hnew (hsame ▸ hholder)

/-- The points after a node was added: its own, and those at other positions. -/
theorem Coherent.mem_points_add (hcoherent : ring.Coherent) (hnew : node ∉ ring.nodes)
    {point : Position × NodeId} :
    point ∈ (ring.add node).points ↔
      point.1 ∈ positionsOf ring.pointsPerNode node ∧ point.2 = node ∨
        point ∈ ring.points ∧ point.1 ∉ positionsOf ring.pointsPerNode node := by
  rw [add_of_not_mem hnew]
  exact (foldl_putPoint _ hcoherent.pointsAscend).2 point

/-- The points after a node was removed: those at other positions. -/
theorem mem_points_remove (hthere : node ∈ ring.nodes) {point : Position × NodeId} :
    point ∈ (ring.remove node).points ↔
      point ∈ ring.points ∧ point.1 ∉ positionsOf ring.pointsPerNode node := by
  rw [remove_of_mem hthere]
  simp

theorem Coherent.add (hcoherent : ring.Coherent) (node : NodeId) : (ring.add node).Coherent := by
  by_cases hthere : node ∈ ring.nodes
  · rwa [add_of_mem hthere]
  · refine ⟨?_, ?_, fun point hmem => ?_⟩
    · rw [add_of_not_mem hthere]
      exact Ascending.pairwise_insert UInt64.lt_trans node hcoherent.nodesAscend
    · rw [add_of_not_mem hthere]
      exact (foldl_putPoint _ hcoherent.pointsAscend).1
    · rw [mem_nodes_add, pointsPerNode_add]
      rcases (hcoherent.mem_points_add hthere).mp hmem with ⟨hposition, rfl⟩ | ⟨hold, -⟩
      · exact ⟨Or.inl rfl, hposition⟩
      · exact ⟨Or.inr (hcoherent.held point hold).1, (hcoherent.held point hold).2⟩

/-- Removing a node takes off all that it holds, so whoever holds a point is still there. -/
theorem Coherent.remove (hcoherent : ring.Coherent) (node : NodeId) :
    (ring.remove node).Coherent := by
  by_cases hthere : node ∈ ring.nodes
  · refine ⟨?_, ?_, fun point hmem => ?_⟩
    · rw [remove_of_mem hthere]
      exact hcoherent.nodesAscend.filter _
    · rw [remove_of_mem hthere]
      exact hcoherent.pointsAscend.filter _
    · obtain ⟨hold, hapart⟩ := (mem_points_remove hthere).mp hmem
      obtain ⟨hholder, hposition⟩ := hcoherent.held point hold
      rw [mem_nodes_remove, pointsPerNode_remove]
      exact ⟨⟨hholder, fun hsame => hapart (hsame ▸ hposition)⟩, hposition⟩
  · rwa [remove_of_not_mem hthere]

theorem Coherent.change (hcoherent : ring.Coherent) (change : RingChange) :
    (ring.change change).Coherent := by
  cases change with
  | join node => exact hcoherent.add node
  | leave node => exact hcoherent.remove node

/-- Every ring that comes about by joining and leaving is in order. -/
theorem Coherent.after (hcoherent : ring.Coherent) (changes : List RingChange) :
    (ring.after changes).Coherent := by
  induction changes generalizing ring with
  | nil => exact hcoherent
  | cons change changes ih => exact ih (hcoherent.change change)

/-- Two rings in order are equal when they have the same nodes, the same points, and the same
numbers. -/
theorem Coherent.ext {other : Ring} (hring : ring.Coherent) (hother : other.Coherent)
    (hpointsPerNode : ring.pointsPerNode = other.pointsPerNode)
    (hnumOwners : ring.numOwners = other.numOwners)
    (hnodes : ∀ node, node ∈ ring.nodes ↔ node ∈ other.nodes)
    (hpoints : ∀ point, point ∈ ring.points ↔ point ∈ other.points) : ring = other := by
  have hnodes := eq_of_ascending_nodes hring.nodesAscend hother.nodesAscend hnodes
  have hpoints := hring.pointsAscend.ext hother.pointsAscend hpoints
  cases ring
  cases other
  simp_all

/-- No point of a node is missing. -/
def Complete (ring : Ring) : Prop :=
  ∀ node ∈ ring.nodes, ∀ position ∈ positionsOf ring.pointsPerNode node,
    (position, node) ∈ ring.points

theorem Complete.add (hcomplete : ring.Complete) (hcoherent : ring.Coherent)
    (hapart : PointsApart ring.pointsPerNode (node :: ring.nodes)) : (ring.add node).Complete := by
  by_cases hthere : node ∈ ring.nodes
  · rwa [add_of_mem hthere]
  · intro other hother position hposition
    rw [pointsPerNode_add] at hposition
    rw [hcoherent.mem_points_add hthere]
    rcases mem_nodes_add.mp hother with rfl | hold
    · exact Or.inl ⟨hposition, rfl⟩
    · have hpoint := hcomplete other hold position hposition
      exact Or.inr ⟨hpoint, hcoherent.not_shared hthere hapart hpoint⟩

theorem Complete.remove (hcomplete : ring.Complete)
    (hapart : PointsApart ring.pointsPerNode ring.nodes) : (ring.remove node).Complete := by
  by_cases hthere : node ∈ ring.nodes
  · intro other hother position hposition
    rw [pointsPerNode_remove] at hposition
    obtain ⟨hold, hne⟩ := mem_nodes_remove.mp hother
    rw [mem_points_remove hthere]
    refine ⟨hcomplete other hold position hposition, fun hshared => hne ?_⟩
    exact hapart.eq_of_mem hold hthere hposition hshared
  · rwa [remove_of_not_mem hthere]

/-- The points of a ring from which none is missing are those of its nodes. -/
theorem Complete.mem_points (hcomplete : ring.Complete) (hcoherent : ring.Coherent)
    {point : Position × NodeId} :
    point ∈ ring.points ↔
      point.2 ∈ ring.nodes ∧ point.1 ∈ positionsOf ring.pointsPerNode point.2 :=
  ⟨hcoherent.held point, fun ⟨hholder, hposition⟩ => hcomplete point.2 hholder point.1 hposition⟩

/-- A ring in which no point is missing is determined by its nodes and its numbers. -/
theorem Complete.ext {other : Ring} (hring : ring.Complete) (hother : other.Complete)
    (hcoherent : ring.Coherent) (hordered : other.Coherent)
    (hpointsPerNode : ring.pointsPerNode = other.pointsPerNode)
    (hnumOwners : ring.numOwners = other.numOwners)
    (hnodes : ∀ node, node ∈ ring.nodes ↔ node ∈ other.nodes) : ring = other := by
  refine hcoherent.ext hordered hpointsPerNode hnumOwners hnodes fun point => ?_
  rw [hring.mem_points hcoherent, hother.mem_points hordered, hnodes, hpointsPerNode]

end Custody.Ring
