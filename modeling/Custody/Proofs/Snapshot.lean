/-
# Primary owners

Under one snapshot a segment has at most one primary owner, and the segments of a node are those of
which it is the primary owner, if the node is found among the members.  In a valid snapshot every owner
is found: one that was not checked may name an owner who is not a member, and then nobody has the
segment.

The checks refuse exactly the parts that make no valid snapshot, so whatever passes them is valid.
-/

import Mathlib.Data.List.Sort
import Custody.Snapshot.Basic

namespace Custody

theorem NodeId.eq_of_not_lt {first second : NodeId} (hfirst : ¬ first < second)
    (hsecond : ¬ second < first) : first = second :=
  UInt64.le_antisymm (UInt64.not_lt.mp hsecond) (UInt64.not_lt.mp hfirst)

/-- A node is among some nodes that were put in order when it is one of them. -/
theorem mem_ofList_nodes {node : NodeId} {nodes : List NodeId} :
    node ∈ Ascending.ofList nodes ↔ node ∈ nodes :=
  Ascending.mem_ofList fun _ _ => NodeId.eq_of_not_lt

/-- Two ascending lists of nodes with the same members are equal. -/
theorem eq_of_ascending_nodes {first second : List NodeId} (hfirst : first.Pairwise (· < ·))
    (hsecond : second.Pairwise (· < ·)) (hsame : ∀ node, node ∈ first ↔ node ∈ second) :
    first = second := by
  have : Std.Irrefl (α := NodeId) (· < ·) := ⟨UInt64.lt_irrefl⟩
  have : Std.Antisymm (α := NodeId) (· < ·) :=
    ⟨fun a b hlt hgt => absurd (UInt64.lt_trans hlt hgt) (UInt64.lt_irrefl a)⟩
  exact hfirst.eq_of_mem_iff hsecond hsame

namespace Snapshot

/-- Whether a snapshot passed its checks. -/
def Checked (snapshot : Snapshot) : Prop :=
  ∃ topology members owners, ofParts? topology members owners = .ok snapshot

variable {snapshot : Snapshot} {segment : SegmentId}

/-- A segment outside the key space has no owners. -/
theorem ownersOf_of_le (houtside : snapshot.segmentCount ≤ segment) :
    snapshot.ownersOf segment = [] := by
  rw [ownersOf, List.getElem?_eq_none houtside, Option.getD_none]

/-- The owners of a segment are listed where they are not none. -/
theorem ownersOf_mem (hinside : segment < snapshot.segmentCount) :
    snapshot.ownersOf segment ∈ snapshot.owners := by
  rw [ownersOf, List.getElem?_eq_getElem hinside, Option.getD_some]
  exact List.getElem_mem hinside

/-- A segment with a primary owner is in the key space. -/
theorem lt_of_primaryOwner {node : NodeId} (howner : snapshot.primaryOwner segment = some node) :
    segment < snapshot.segmentCount := by
  apply Nat.lt_of_not_le
  intro houtside
  rw [primaryOwner, ownersOf_of_le houtside] at howner
  cases howner

/-- Looking up a node finds it only where it is listed. -/
theorem mem_of_containsMember {node : NodeId} (hfound : snapshot.containsMember node = true) :
    node ∈ snapshot.members :=
  Ascending.mem_of_searchWithin hfound

/-- A node has the segments of which it is the primary owner, if it is found among the members. -/
theorem mem_primarySegments_iff {node : NodeId} :
    segment ∈ snapshot.primarySegments node ↔
      snapshot.primaryOwner segment = some node ∧ snapshot.containsMember node = true := by
  unfold primarySegments
  split
  · next hfound =>
      rw [SegmentSet.mem_below, decide_eq_true_eq]
      exact ⟨fun ⟨_, howner⟩ => ⟨howner, hfound⟩,
        fun ⟨howner, _⟩ => ⟨lt_of_primaryOwner howner, howner⟩⟩
  · next hmissed => exact iff_of_false nofun fun ⟨_, hfound⟩ => hmissed hfound

theorem primaryOwner_of_mem {node : NodeId} (hmem : segment ∈ snapshot.primarySegments node) :
    snapshot.primaryOwner segment = some node :=
  (mem_primarySegments_iff.mp hmem).1

/-- A segment is primary for one node only. -/
theorem eq_of_mem_primarySegments {first second : NodeId}
    (hfirst : segment ∈ snapshot.primarySegments first)
    (hsecond : segment ∈ snapshot.primarySegments second) : first = second :=
  Option.some.inj ((primaryOwner_of_mem hfirst).symm.trans (primaryOwner_of_mem hsecond))

/-- Looking up a node in ascending members finds it when it is one of them. -/
theorem containsMember_eq_true (hascend : snapshot.members.Pairwise (· < ·)) {node : NodeId} :
    snapshot.containsMember node = true ↔ node ∈ snapshot.members :=
  Ascending.search_eq_true UInt64.lt_irrefl UInt64.lt_trans hascend

namespace Valid

/-- The primary owner of a segment is a member. -/
theorem containsMember (hvalid : snapshot.Valid) {node : NodeId}
    (howner : snapshot.primaryOwner segment = some node) :
    snapshot.containsMember node = true :=
  (containsMember_eq_true hvalid.membersAscend).mpr
    (hvalid.ownersAreMembers _ (ownersOf_mem (lt_of_primaryOwner howner)) node
      (List.mem_of_mem_head? howner))

/-- The segments of a node are those of which it is the primary owner. -/
theorem mem_primarySegments (hvalid : snapshot.Valid) {node : NodeId} :
    segment ∈ snapshot.primarySegments node ↔ snapshot.primaryOwner segment = some node :=
  mem_primarySegments_iff.trans
    ⟨And.left, fun howner => ⟨howner, hvalid.containsMember howner⟩⟩

/-- What a node has is all of the key space of which it is the primary owner. -/
theorem primarySegments_eq (hvalid : snapshot.Valid) (node : NodeId) :
    snapshot.primarySegments node =
      SegmentSet.below snapshot.segmentCount fun segment =>
        snapshot.primaryOwner segment = some node := by
  refine SegmentSet.ext fun segment => ?_
  rw [hvalid.mem_primarySegments, SegmentSet.mem_below, decide_eq_true_eq]
  exact ⟨fun howner => ⟨lt_of_primaryOwner howner, howner⟩, And.right⟩

end Valid

/-- There is no fault where every owner is a member that was not listed before. -/
theorem ownerFault_eq_none {earlier owners : List NodeId} :
    snapshot.ownerFault segment earlier owners = none ↔
      (∀ owner ∈ owners, snapshot.containsMember owner = true ∧ owner ∉ earlier) ∧
        owners.Nodup := by
  induction owners generalizing earlier with
  | nil => simp [ownerFault]
  | cons owner later ih =>
      unfold ownerFault
      split
      · next hforeign =>
          refine iff_of_false nofun fun ⟨hall, _⟩ => ?_
          simp [(hall owner List.mem_cons_self).1] at hforeign
      · next hmember =>
          split
          · next hagain =>
              refine iff_of_false nofun fun ⟨hall, _⟩ => ?_
              exact (hall owner List.mem_cons_self).2 (List.contains_iff_mem.mp hagain)
          · next hnew =>
              simp only [Bool.not_eq_true', Bool.not_eq_false] at hmember
              have hfirst : owner ∉ earlier := fun hmem => hnew (List.contains_iff_mem.mpr hmem)
              rw [ih, List.nodup_cons]
              simp only [List.mem_cons, not_or, forall_eq_or_imp]
              constructor
              · rintro ⟨hlater, hnodup⟩
                exact ⟨⟨⟨hmember, hfirst⟩, fun other hother =>
                    ⟨(hlater other hother).1, (hlater other hother).2.2⟩⟩,
                  fun hmem => (hlater owner hmem).2.1 rfl, hnodup⟩
              · rintro ⟨⟨-, hlater⟩, hnotlater, hnodup⟩
                exact ⟨fun other hother => ⟨(hlater other hother).1,
                  fun hsame => hnotlater (hsame ▸ hother), (hlater other hother).2⟩, hnodup⟩

/-- There is no fault where the owners of every segment are different members. -/
theorem segmentFault_eq_none (snapshot : Snapshot) (first : SegmentId)
    (lists : List (List NodeId)) :
    snapshot.segmentFault first lists = none ↔
      ∀ owners ∈ lists,
        (∀ owner ∈ owners, snapshot.containsMember owner = true) ∧ owners.Nodup := by
  induction lists generalizing first with
  | nil => simp [segmentFault]
  | cons owners rest ih =>
      rw [segmentFault, Option.or_eq_none_iff, ownerFault_eq_none, ih, List.forall_mem_cons]
      simp only [List.not_mem_nil, not_false_eq_true, and_true]

/-- Parts make a snapshot when there is a segment, every owner is a member, and no segment lists an
owner twice. -/
theorem ofParts?_eq_ok {topology : TopologyId} {members : List NodeId}
    {owners : List (List NodeId)} :
    ofParts? topology members owners = .ok snapshot ↔
      (owners ≠ [] ∧ (∀ list ∈ owners, ∀ owner ∈ list, owner ∈ members) ∧
        ∀ list ∈ owners, list.Nodup) ∧
      ofParts topology members owners = snapshot := by
  have hmember : ∀ {node : NodeId},
      (ofParts topology members owners).containsMember node = true ↔ node ∈ members :=
    (containsMember_eq_true (Ascending.pairwise_ofList UInt64.lt_trans members)).trans
      mem_ofList_nodes
  unfold ofParts?
  split
  · next hempty =>
      exact iff_of_false nofun fun ⟨⟨hsome, _⟩, _⟩ => hsome (List.isEmpty_iff.mp hempty)
  · next hsome =>
      have hnonempty : owners ≠ [] := fun hempty => hsome (List.isEmpty_iff.mpr hempty)
      have hfault := segmentFault_eq_none (ofParts topology members owners) 0 owners
      simp only [hmember] at hfault
      dsimp only
      split
      · next fault hfaulty =>
          refine iff_of_false nofun fun ⟨⟨_, hmembers, hdiffer⟩, _⟩ => ?_
          rw [hfault.mpr fun list hlist => ⟨hmembers list hlist, hdiffer list hlist⟩] at hfaulty
          cases hfaulty
      · next hnone =>
          have hall := hfault.mp hnone
          rw [Except.ok.injEq]
          exact ⟨fun hsame => ⟨⟨hnonempty, fun list hlist => (hall list hlist).1,
            fun list hlist => (hall list hlist).2⟩, hsame⟩, And.right⟩

/-- Parts with a segment, whose owners are members that differ within a segment, are valid. -/
theorem valid_ofParts (topology : TopologyId) {members : List NodeId}
    {owners : List (List NodeId)} (hsegment : owners ≠ [])
    (hmembers : ∀ list ∈ owners, ∀ owner ∈ list, owner ∈ members)
    (hdiffer : ∀ list ∈ owners, list.Nodup) : (ofParts topology members owners).Valid where
  membersAscend := Ascending.pairwise_ofList UInt64.lt_trans members
  hasSegment := hsegment
  ownersAreMembers := fun list hlist owner howner =>
    mem_ofList_nodes.mpr (hmembers list hlist owner howner)
  ownersDiffer := hdiffer

namespace Checked

/-- What passes the checks is valid. -/
theorem valid (hchecked : snapshot.Checked) : snapshot.Valid := by
  obtain ⟨topology, members, owners, hok⟩ := hchecked
  obtain ⟨⟨hsegment, hmembers, hdiffer⟩, rfl⟩ := ofParts?_eq_ok.mp hok
  exact valid_ofParts topology hsegment hmembers hdiffer

/-- The segments of a node are those of which it is the primary owner. -/
theorem mem_primarySegments (hchecked : snapshot.Checked) {node : NodeId} :
    segment ∈ snapshot.primarySegments node ↔ snapshot.primaryOwner segment = some node :=
  hchecked.valid.mem_primarySegments

end Checked

end Snapshot

end Custody
