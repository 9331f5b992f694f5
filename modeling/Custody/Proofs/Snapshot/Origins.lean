/-
# Where snapshots come from

A snapshot is made from parts, built step by step, placed by a ring, or empty.  Only the first two ways
check it, and what they let through is valid because of the checks.  The others need none: nobody owns
anything in an empty snapshot, and a ring whose nodes have joined and left in any way names only its
nodes as owners and none of them twice for a segment.  A snapshot that is decoded from a text comes about
in none of these ways, and nothing is checked there.

In a valid snapshot every segment that has an owner is primary for exactly one node.  A partitioner
puts each key in one segment, so at most one node is responsible for a key, and one is if the segment
of the key has an owner.
-/

import Custody.Locality
import Custody.Snapshot.Builder
import Custody.Proofs.Ring.Walk

namespace Custody

/-- A ring in order places every segment on nodes of its own, on none of them twice. -/
theorem Ring.Coherent.valid_snapshot {ring : Ring} (hcoherent : ring.Coherent)
    (topology : TopologyId) (segmentCount : Nat) : (ring.snapshot topology segmentCount).Valid := by
  refine Snapshot.valid_ofParts topology ?_ (fun owners hmem => ?_) fun owners hmem => ?_
  · exact List.ne_nil_of_length_pos (by simp)
  · obtain ⟨segment, -, rfl⟩ := List.mem_map.mp hmem
    exact fun owner howner => hcoherent.segmentOwners_subset segment _ howner
  · obtain ⟨segment, -, rfl⟩ := List.mem_map.mp hmem
    exact hcoherent.nodup_segmentOwners segment _

namespace Snapshot

variable {snapshot : Snapshot}

/-- A snapshot that is finished passed the checks. -/
theorem checked_of_build {topology : TopologyId} {segmentCount : Nat} {steps : List BuildStep}
    (hok : build topology segmentCount steps = .ok snapshot) : snapshot.Checked := by
  rw [build, SnapshotBuilder.finish] at hok
  split at hok
  · cases hok
  · exact ⟨_, _, _, hok⟩

theorem valid_empty (topology : TopologyId) (segmentCount : Nat) :
    (empty topology segmentCount).Valid := by
  have hnobody : ∀ owners ∈ List.replicate (max segmentCount 1) ([] : List NodeId), owners = [] :=
    fun owners hmem => (List.mem_replicate.mp hmem).2
  refine valid_ofParts topology ?_ (fun owners hmem => ?_) fun owners hmem => ?_
  · exact List.ne_nil_of_length_pos (by simp)
  · rw [hnobody owners hmem]
    exact fun _ howner => nomatch howner
  · rw [hnobody owners hmem]
    exact List.nodup_nil

/-- The ways in which a snapshot comes about. -/
inductive Arises : Snapshot → Prop where
  /-- It was made from parts that passed the checks. -/
  | parts {topology : TopologyId} {members : List NodeId} {owners : List (List NodeId)}
      {snapshot : Snapshot} (hok : ofParts? topology members owners = .ok snapshot) :
      Arises snapshot
  /-- It was built step by step. -/
  | steps {topology : TopologyId} {segmentCount : Nat} {steps : List BuildStep}
      {snapshot : Snapshot} (hok : build topology segmentCount steps = .ok snapshot) :
      Arises snapshot
  /-- It was built by naming the primary owners. -/
  | primaries {topology : TopologyId} {segmentCount : Nat}
      {assignments : List (NodeId × List SegmentId)} {snapshot : Snapshot}
      (hok : ofPrimaries topology segmentCount assignments = .ok snapshot) : Arises snapshot
  /-- It has no members. -/
  | empty (topology : TopologyId) (segmentCount : Nat) : Arises (empty topology segmentCount)
  /-- It was placed by a ring with a history of its own, checked by nobody. -/
  | ring (numOwners pointsPerNode : Nat) (changes : List RingChange) (topology : TopologyId)
      (segmentCount : Nat) :
      Arises (((Ring.empty numOwners pointsPerNode).after changes).snapshot topology segmentCount)

/-- However a snapshot comes about, it is valid. -/
theorem Arises.valid (harises : snapshot.Arises) : snapshot.Valid := by
  cases harises with
  | parts hok => exact Checked.valid ⟨_, _, _, hok⟩
  | steps hok => exact (checked_of_build hok).valid
  | primaries hok => exact (checked_of_build hok).valid
  | empty topology segmentCount => exact valid_empty topology segmentCount
  | ring numOwners pointsPerNode changes topology segmentCount =>
      exact ((Ring.coherent_empty numOwners pointsPerNode).after changes).valid_snapshot topology
        segmentCount

/-- A segment of a valid snapshot that has an owner is primary for some node, and no other segment
is. -/
theorem Valid.exists_mem_primarySegments (hvalid : snapshot.Valid) {segment : SegmentId} :
    (∃ node, segment ∈ snapshot.primarySegments node) ↔ snapshot.ownersOf segment ≠ [] := by
  constructor
  · rintro ⟨node, hmem⟩ hnone
    have howner := primaryOwner_of_mem hmem
    rw [primaryOwner, hnone] at howner
    cases howner
  · intro hsome
    obtain ⟨node, howner⟩ := Option.isSome_iff_exists.mp (List.isSome_head?.mpr hsome)
    exact ⟨node, hvalid.mem_primarySegments.mpr howner⟩

/-- A node is responsible for the keys in its primary segments. -/
theorem owns_ofSnapshot {K : Type} {partitioner : Partitioner K} {node : NodeId} {key : K} :
    (SegmentLocality.ofSnapshot partitioner snapshot node).owns key = true ↔
      partitioner.segmentOf key ∈ snapshot.primarySegments node :=
  SegmentSet.contains_eq_true

/-- Parts are accepted exactly when they have a segment, every owner is a member, and no segment lists
an owner twice.  Every snapshot, however it came about, is valid; the segments of a node are those of
which it is the primary owner, no two nodes share one, and those that some node has are those with an
owner.  At most one node is responsible for a key, and one is exactly when the segment of the key has
an owner. -/
theorem arising_owned_once :
    (∀ topology members owners,
      (∃ snapshot, ofParts? topology members owners = .ok snapshot) ↔
        owners ≠ [] ∧ (∀ list ∈ owners, ∀ owner ∈ list, owner ∈ members) ∧
          ∀ list ∈ owners, list.Nodup) ∧
    ∀ snapshot : Snapshot, snapshot.Arises →
      snapshot.Valid ∧
      (∀ node segment, segment ∈ snapshot.primarySegments node ↔
        snapshot.primaryOwner segment = some node) ∧
      (∀ first second, first ≠ second → ∀ segment, segment ∈ snapshot.primarySegments first →
        ¬ segment ∈ snapshot.primarySegments second) ∧
      (∀ segment, (∃ node, segment ∈ snapshot.primarySegments node) ↔
        snapshot.ownersOf segment ≠ []) ∧
      ∀ (K : Type) (partitioner : Partitioner K) (key : K),
        (∀ first second,
          (SegmentLocality.ofSnapshot partitioner snapshot first).owns key = true →
          (SegmentLocality.ofSnapshot partitioner snapshot second).owns key = true →
            first = second) ∧
        ((∃! node, (SegmentLocality.ofSnapshot partitioner snapshot node).owns key = true) ↔
          snapshot.ownersOf (partitioner.segmentOf key) ≠ []) := by
  refine ⟨fun topology members owners => ?_, fun snapshot harises => ?_⟩
  · constructor
    · rintro ⟨snapshot, hok⟩
      exact (ofParts?_eq_ok.mp hok).1
    · exact fun hparts => ⟨_, ofParts?_eq_ok.mpr ⟨hparts, rfl⟩⟩
  · have hvalid := harises.valid
    refine ⟨hvalid, fun node segment => hvalid.mem_primarySegments, ?_,
      fun segment => hvalid.exists_mem_primarySegments, fun K partitioner key => ⟨?_, ?_⟩⟩
    · exact fun first second hne segment hfirst hsecond =>
        hne (eq_of_mem_primarySegments hfirst hsecond)
    · exact fun first second hfirst hsecond =>
        eq_of_mem_primarySegments (owns_ofSnapshot.mp hfirst) (owns_ofSnapshot.mp hsecond)
    · simp only [owns_ofSnapshot]
      rw [← hvalid.exists_mem_primarySegments]
      refine ⟨ExistsUnique.exists, fun ⟨node, hmem⟩ => ⟨node, hmem, fun other hother => ?_⟩⟩
      exact eq_of_mem_primarySegments hother hmem

/-- Three nodes have joined a ring and one has left it. -/
def handedOn : Snapshot :=
  ((Ring.empty 2 2).after [.join 1, .join 2, .leave 1, .join 3]).snapshot 7 4

/-- One of the nodes that are left is responsible for the key 5, placed by its hash. -/
theorem arising_owned_once_handedOn :
    handedOn.Arises ∧ handedOn.Valid ∧
      handedOn.ownersOf ((Partitioner.hashed UInt64 4).segmentOf 5) ≠ [] ∧
      ∃! node, (SegmentLocality.ofSnapshot (Partitioner.hashed UInt64 4) handedOn node).owns 5 =
        true := by
  have harises : handedOn.Arises := .ring 2 2 _ 7 4
  obtain ⟨hvalid, -, -, -, hkeys⟩ := arising_owned_once.2 handedOn harises
  have howned : handedOn.ownersOf ((Partitioner.hashed UInt64 4).segmentOf 5) ≠ [] := by
    decide +kernel
  exact ⟨harises, hvalid, howned, (hkeys UInt64 (Partitioner.hashed UInt64 4) 5).2.mpr howned⟩

end Snapshot

end Custody
