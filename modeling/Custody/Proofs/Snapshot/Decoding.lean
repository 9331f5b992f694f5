/-
# Snapshots from a text

A text holds the members and the owners as somebody wrote them.  Every snapshot has a text that
decodes to it, so decoding refuses none: neither members out of order, nor owners who are no members,
nor a segment with an owner twice, nor a snapshot without segments.

What was decoded is therefore to be checked before it is used.  The checks let it through unchanged
when it is valid, and only then; and of a valid snapshot the lookups tell what the text lists.  Of the
others they may tell less but nothing else: a member may be missed, and a node that is missed has no
segments.
-/

import Custody.Proofs.Json.Records
import Custody.Proofs.Snapshot

namespace Custody.Snapshot

variable {snapshot : Snapshot}

theorem plain_toJson (snapshot : Snapshot) : snapshot.toJson.Plain := by
  refine Json.plain_ofRecord fun field hmem => ?_
  simp only [List.mem_cons, List.not_mem_nil, or_false] at hmem
  rcases hmem with rfl | rfl | rfl
  · exact Json.plain_ofUInt64 _
  · exact Json.plain_array_map Json.plain_ofUInt64 _
  · exact Json.plain_array_map (fun owners => Json.plain_array_map Json.plain_ofUInt64 owners) _

theorem spelledBy_toJson (snapshot : Snapshot) : snapshot.SpelledBy snapshot.toJson :=
  Json.spellsRecord_ofRecord snapshot.jsonRecord

/-- A snapshot is understood from the values that stand for it. -/
theorem ofJson?_eq_some_iff {value : Json} :
    ofJson? value = some snapshot ↔ snapshot.SpelledBy value := by
  have hnodes := @Json.asList_eq_some_iff _ _ _ fun _ _ => Json.asUInt64_eq_some_iff
  have howners := @Json.asList_eq_some_iff _ _ _ fun _ _ => hnodes
  have hnames : snapshot.jsonRecord.map Prod.fst = jsonFields := rfl
  rw [SpelledBy, ← Json.asRecord_eq_some_iff (by rw [hnames]; decide), hnames, ofJson?]
  split
  · next topology members owners hfields =>
      rw [hfields]
      simp only [Option.bind_eq_bind, Option.bind_eq_some_iff, Option.pure_def, Option.some.injEq,
        Json.asUInt64_eq_some_iff, hnodes, howners, jsonRecord, List.map_cons, List.map_nil,
        List.cons.injEq, and_true]
      constructor
      · rintro ⟨_, rfl, _, rfl, _, rfl, rfl⟩
        exact ⟨rfl, rfl, rfl⟩
      · rintro ⟨htopology, hmembers, howners⟩
        exact ⟨_, htopology, _, hmembers, _, howners, rfl⟩
  · next hother => exact iff_of_false nofun fun hfields => hother _ _ _ hfields

theorem ofJson?_toJson (snapshot : Snapshot) : ofJson? snapshot.toJson = some snapshot :=
  ofJson?_eq_some_iff.mpr snapshot.spelledBy_toJson

/-- A snapshot is decoded from its text. -/
theorem decode?_encode (snapshot : Snapshot) : decode? snapshot.encode = some snapshot := by
  rw [decode?, encode, (plain_toJson snapshot).read_render, Option.bind_some, ofJson?_toJson]

/-- The checks let a snapshot through as it is when it is valid. -/
theorem ofParts?_eq_ok_self :
    ofParts? snapshot.topology snapshot.members snapshot.owners = .ok snapshot ↔
      snapshot.Valid := by
  constructor
  · exact fun hok => Checked.valid ⟨_, _, _, hok⟩
  · intro hvalid
    have hordered : Ascending.ofList snapshot.members = snapshot.members :=
      eq_of_ascending_nodes (Ascending.pairwise_ofList UInt64.lt_trans _) hvalid.membersAscend
        fun _ => mem_ofList_nodes
    refine ofParts?_eq_ok.mpr
      ⟨⟨hvalid.hasSegment, hvalid.ownersAreMembers, hvalid.ownersDiffer⟩, ?_⟩
    rw [ofParts, hordered]

/-- Every snapshot is decoded from some text, so that a decoded one may be any.  It is valid when the
checks let its parts through as they are; then a node is found when it is listed, and has the segments
of which it is the primary owner.  In any case only nodes that are listed are found, and a node has
those segments if it is found. -/
theorem decoded_valid_iff_checked (snapshot : Snapshot) :
    (∃ text, decode? text = some snapshot) ∧
    (snapshot.Valid ↔
      ofParts? snapshot.topology snapshot.members snapshot.owners = .ok snapshot) ∧
    (snapshot.Valid → ∀ node,
      (snapshot.containsMember node = true ↔ node ∈ snapshot.members) ∧
      ∀ segment, segment ∈ snapshot.primarySegments node ↔
        snapshot.primaryOwner segment = some node) ∧
    ∀ node,
      (snapshot.containsMember node = true → node ∈ snapshot.members) ∧
      ∀ segment, segment ∈ snapshot.primarySegments node ↔
        snapshot.primaryOwner segment = some node ∧ snapshot.containsMember node = true := by
  refine ⟨⟨snapshot.encode, decode?_encode snapshot⟩, ofParts?_eq_ok_self.symm,
    fun hvalid node => ?_, fun node => ?_⟩
  · exact ⟨containsMember_eq_true hvalid.membersAscend, fun _ => hvalid.mem_primarySegments⟩
  · exact ⟨mem_of_containsMember, fun _ => mem_primarySegments_iff⟩

/-- Two members in order, one of which owns the first of two segments. -/
def orderedPair : Snapshot := ⟨3, [1, 2], [[2, 1], []]⟩

/-- The same with the members out of order. -/
def unorderedPair : Snapshot := ⟨3, [2, 1], [[2, 1], []]⟩

/-- Members in order are found, and the owner has its segment. -/
theorem decoded_valid_iff_checked_orderedPair :
    decode? "\x7b\"topology_id\":3,\"members\":[1,2],\"segment_owners\":[[2,1],[]]\x7d" =
        some orderedPair ∧
      orderedPair.Valid ∧ orderedPair.containsMember 2 = true ∧
      0 ∈ orderedPair.primarySegments 2 := by
  obtain ⟨-, hchecked, hlookups, -⟩ := decoded_valid_iff_checked orderedPair
  have hvalid := hchecked.mpr (by decide +kernel)
  obtain ⟨hfound, hsegments⟩ := hlookups hvalid 2
  exact ⟨by decide +kernel, hvalid, hfound.mpr (by decide), (hsegments 0).mpr (by decide)⟩

/-- Members out of order are decoded as they are.  The owner of the first segment is one of them and is
not found, so that nobody has the segment. -/
theorem decoded_unorderedPair :
    decode? "\x7b\"topology_id\":3,\"members\":[2,1],\"segment_owners\":[[2,1],[]]\x7d" =
        some unorderedPair ∧
      ¬ unorderedPair.Valid ∧
      2 ∈ unorderedPair.members ∧ unorderedPair.containsMember 2 = false ∧
      unorderedPair.primaryOwner 0 = some 2 ∧ ¬ 0 ∈ unorderedPair.primarySegments 2 := by
  refine ⟨by decide +kernel, fun hvalid => ?_, by decide, by decide, by decide, by decide⟩
  exact absurd hvalid.membersAscend (by decide)

end Custody.Snapshot
