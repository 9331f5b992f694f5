/-
# Sets of segments

A finite set of segments, held as an ascending list.  Two sets with the same members are equal,
which is what lets later statements compare what a node owns before and after a transition.
-/

import Custody.Ascending
import Custody.Ids

namespace Custody

/-- A finite set of segments. -/
structure SegmentSet where
  /-- The members, in ascending order. -/
  toList : List SegmentId
  /-- Every member is larger than those before it. -/
  ascending : toList.Pairwise (· < ·)
deriving DecidableEq

namespace SegmentSet

/-- The set without members. -/
def empty : SegmentSet := ⟨[], List.Pairwise.nil⟩

/-- The set of the listed segments. -/
def ofList (segments : List SegmentId) : SegmentSet :=
  ⟨Ascending.ofList segments, Ascending.pairwise_ofList Nat.lt_trans segments⟩

/-- The members that satisfy a test. -/
def filter (test : SegmentId → Bool) (set : SegmentSet) : SegmentSet :=
  ⟨set.toList.filter test, set.ascending.filter test⟩

/-- The segments below a count that satisfy a test. -/
def below (count : Nat) (test : SegmentId → Bool) : SegmentSet :=
  ⟨(List.range count).filter test, List.pairwise_lt_range.filter test⟩

instance : Membership SegmentId SegmentSet where
  mem set segment := segment ∈ set.toList

instance (segment : SegmentId) (set : SegmentSet) : Decidable (segment ∈ set) :=
  inferInstanceAs (Decidable (segment ∈ set.toList))

/-- Whether a segment is a member. -/
def contains (set : SegmentSet) (segment : SegmentId) : Bool :=
  set.toList.contains segment

/-- The number of members. -/
def size (set : SegmentSet) : Nat := set.toList.length

/-- Whether the set has no members. -/
def isEmpty (set : SegmentSet) : Bool := set.toList.isEmpty

/-- The members of the first set that the second lacks. -/
def diff (first second : SegmentSet) : SegmentSet :=
  first.filter fun segment => !second.contains segment

/-- The members that two sets share. -/
def inter (first second : SegmentSet) : SegmentSet :=
  first.filter fun segment => second.contains segment

/-- Whether every member of the second set is a member of the first. -/
def includes (first second : SegmentSet) : Bool :=
  second.toList.all fun segment => first.contains segment

/-- A segment is a member when it is listed. -/
theorem mem_def {segment : SegmentId} {set : SegmentSet} :
    segment ∈ set ↔ segment ∈ set.toList := Iff.rfl

/-- The test for membership finds every member. -/
@[simp] theorem contains_eq_true {set : SegmentSet} {segment : SegmentId} :
    set.contains segment = true ↔ segment ∈ set := by
  simp [contains, mem_def]

/-- The test for membership finds nothing else. -/
@[simp] theorem contains_eq_false {set : SegmentSet} {segment : SegmentId} :
    set.contains segment = false ↔ ¬ segment ∈ set := by
  simp [contains, mem_def]

/-- Filtering keeps the members that satisfy the test. -/
@[simp] theorem mem_filter {test : SegmentId → Bool} {set : SegmentSet} {segment : SegmentId} :
    segment ∈ set.filter test ↔ segment ∈ set ∧ test segment = true := by
  simp [mem_def, filter]

/-- The segments below a count are taken if they satisfy the test. -/
@[simp] theorem mem_below {count : Nat} {test : SegmentId → Bool} {segment : SegmentId} :
    segment ∈ below count test ↔ segment < count ∧ test segment = true := by
  simp [mem_def, below]

/-- A set has the members that it was made from. -/
@[simp] theorem mem_ofList {segments : List SegmentId} {segment : SegmentId} :
    segment ∈ ofList segments ↔ segment ∈ segments :=
  Ascending.mem_ofList (fun _ _ hbelow habove => Nat.le_antisymm (Nat.le_of_not_lt habove)
    (Nat.le_of_not_lt hbelow))

/-- The difference has the members of the first set that the second lacks. -/
@[simp] theorem mem_diff {first second : SegmentSet} {segment : SegmentId} :
    segment ∈ first.diff second ↔ segment ∈ first ∧ ¬ segment ∈ second := by
  simp [diff]

/-- The intersection has the members that both sets have. -/
@[simp] theorem mem_inter {first second : SegmentSet} {segment : SegmentId} :
    segment ∈ first.inter second ↔ segment ∈ first ∧ segment ∈ second := by
  simp [inter]

/-- Inclusion is about members. -/
@[simp] theorem includes_eq_true {first second : SegmentSet} :
    first.includes second = true ↔ ∀ segment, segment ∈ second → segment ∈ first := by
  simp [includes, mem_def, contains]

/-- An empty set has no members. -/
theorem not_contains_of_isEmpty {set : SegmentSet} (hempty : set.isEmpty = true)
    (segment : SegmentId) : set.contains segment = false := by
  apply contains_eq_false.mpr
  intro hmem
  rw [mem_def, List.isEmpty_iff.mp hempty] at hmem
  exact List.not_mem_nil hmem

/-- Nothing is left of a set when the other includes it. -/
theorem isEmpty_diff (first second : SegmentSet) :
    (first.diff second).isEmpty = second.includes first := by
  rw [Bool.eq_iff_iff, includes_eq_true, isEmpty, List.isEmpty_iff, List.eq_nil_iff_forall_not_mem]
  constructor
  · intro hnone segment hmem
    apply Decidable.byContradiction
    intro hout
    exact hnone segment (mem_diff.mpr ⟨hmem, hout⟩)
  · intro hall segment hmem
    have hmembers := mem_diff.mp hmem
    exact hmembers.2 (hall segment hmembers.1)

/-- Sets with the same members are equal: an ascending list is determined by its members. -/
theorem ext {first second : SegmentSet} (same : ∀ segment, segment ∈ first ↔ segment ∈ second) :
    first = second := by
  have hperm : first.toList.Perm second.toList :=
    (List.perm_ext_iff_of_nodup (first.ascending.imp Nat.ne_of_lt)
      (second.ascending.imp Nat.ne_of_lt)).mpr same
  have hlist : first.toList = second.toList :=
    hperm.eq_of_pairwise (fun _ _ _ _ hlt hgt => absurd hgt (Nat.lt_asymm hlt)) first.ascending
      second.ascending
  cases first
  cases second
  simp_all

end SegmentSet

end Custody
