/-
# Walks around a ring

A walk meets nodes again and again, and collecting owners keeps each node where it is met first.  On a
ring in order nothing else limits the owners than how many are asked for: the bound by the number of
nodes never cuts anything off, since a walk meets nodes of the ring only.
-/

import Mathlib.Data.List.Perm.Subperm
import Custody.Proofs.FirstOccurrences
import Custody.Proofs.Ring.Points

namespace Custody

namespace Ring

variable {ring : Ring}

/-- What is collected are the first occurrences among the nodes that were not found before, as many
as are still wanted and at least one. -/
theorem collect_eq (count total : Nat) (found walk : List NodeId) :
    collect count total found walk =
      found ++ (walk.filter (· ∉ found)).eraseDups.take (max 1 (min count total - found.length)) := by
  induction walk generalizing found with
  | nil => simp [collect]
  | cons node rest ih =>
      unfold collect
      split
      · next hfound =>
          rw [ih, List.filter_cons_of_neg (by simpa using hfound)]
      · next hnew =>
          rw [List.filter_cons_of_pos (by simpa using hnew), List.eraseDups_cons]
          split
          · next hlast =>
              have hone : max 1 (min count total - found.length) = 1 := by omega
              rw [hone]
              rfl
          · next hmore =>
              have hwanted : max 1 (min count total - found.length) =
                  max 1 (min count total - (found.length + 1)) + 1 := by omega
              rw [ih, hwanted, List.take_succ_cons, List.append_assoc, List.length_append,
                List.filter_filter]
              simp only [List.length_singleton, List.singleton_append, List.mem_append,
                List.mem_singleton, not_or]
              congr 4
              refine List.filter_congr fun other _ => ?_
              by_cases hsame : other = node <;> simp [hsame]

/-- A walk meets nodes of the ring only. -/
theorem Coherent.walk_subset (hcoherent : ring.Coherent) (position : Position) :
    ring.walk position ⊆ ring.nodes := by
  intro node hmem
  obtain ⟨point, hpoint, rfl⟩ := List.mem_map.mp hmem
  rcases List.mem_append.mp hpoint with hahead | haround
  · exact (hcoherent.held point ((List.dropWhile_sublist _).subset hahead)).1
  · exact (hcoherent.held point haround).1

/-- The owners at a position are the nodes that are met first on the walk from it. -/
theorem Coherent.ownersAt_eq (hcoherent : ring.Coherent) (position : Position) (count : Nat) :
    ring.ownersAt position count = (ring.walk position).eraseDups.take (max count 1) := by
  have hwhole : ring.ownersAt position count =
      (ring.walk position).eraseDups.take (max 1 (min count ring.nodes.length)) := by
    unfold ownersAt
    split
    · next hempty => simp [walk, List.isEmpty_iff.mp hempty]
    · rw [collect_eq]
      simp
  have hlength : (ring.walk position).eraseDups.length ≤ ring.nodes.length :=
    (List.subperm_of_subset (nodup_eraseDups _) fun node hmem =>
      hcoherent.walk_subset position (List.mem_eraseDups.mp hmem)).length_le
  rw [hwhole]
  by_cases hfew : count ≤ ring.nodes.length
  · rw [Nat.min_eq_left hfew, Nat.max_comm]
  · rw [List.take_of_length_le (by omega), List.take_of_length_le (by omega)]

theorem Coherent.segmentOwners_eq (hcoherent : ring.Coherent) (segment : SegmentId)
    (segmentCount : Nat) :
    ring.segmentOwners segment segmentCount =
      (ring.walk (segmentPosition segment segmentCount)).eraseDups.take (max ring.numOwners 1) :=
  hcoherent.ownersAt_eq _ _

/-- No segment has an owner twice. -/
theorem Coherent.nodup_segmentOwners (hcoherent : ring.Coherent) (segment : SegmentId)
    (segmentCount : Nat) : (ring.segmentOwners segment segmentCount).Nodup := by
  rw [hcoherent.segmentOwners_eq]
  exact (nodup_eraseDups _).sublist (List.take_sublist _ _)

/-- The owners of a segment are nodes of the ring. -/
theorem Coherent.segmentOwners_subset (hcoherent : ring.Coherent) (segment : SegmentId)
    (segmentCount : Nat) : ring.segmentOwners segment segmentCount ⊆ ring.nodes := by
  rw [hcoherent.segmentOwners_eq]
  exact fun node hmem => hcoherent.walk_subset _ (List.mem_eraseDups.mp (List.mem_of_mem_take hmem))

/-- In the snapshot of a ring a segment has its owners on the ring. -/
theorem ownersOf_snapshot (ring : Ring) (topology : TopologyId) {segment : SegmentId}
    {segmentCount : Nat} (hinside : segment < max segmentCount 1) :
    (ring.snapshot topology segmentCount).ownersOf segment =
      ring.segmentOwners segment (max segmentCount 1) := by
  simp [snapshot, Snapshot.ofParts, Snapshot.ownersOf, hinside]

/-- Where the points ascend, the points from a position on are those that are not below it. -/
theorem PointsAscend.dropWhile_eq {points : List (Position × NodeId)}
    (hascend : PointsAscend points) (position : Position) :
    points.dropWhile (fun point => point.1 < position) =
      points.filter fun point => position ≤ point.1 := by
  induction points with
  | nil => rfl
  | cons head rest ih =>
      obtain ⟨hhead, hrest⟩ := List.pairwise_cons.mp hascend
      by_cases hbelow : head.1 < position
      · rw [List.dropWhile_cons_of_pos (by simpa using hbelow), ih hrest,
          List.filter_cons_of_neg (by simpa using hbelow)]
      · have hfrom := Nat.le_of_not_lt hbelow
        have hall : ∀ point ∈ head :: rest, decide (position ≤ point.1) = true := by
          intro point hmem
          rcases List.mem_cons.mp hmem with rfl | hlater
          · exact decide_eq_true hfrom
          · exact decide_eq_true (Nat.le_of_lt (Nat.lt_of_le_of_lt hfrom (hhead point hlater)))
        rw [List.dropWhile_cons_of_neg (by simpa using hfrom), List.filter_eq_self.mpr hall]

/-- A walk meets the holders of the points that are not below its position, then those of all. -/
theorem Coherent.walk_eq (hcoherent : ring.Coherent) (position : Position) :
    ring.walk position =
      ((ring.points.filter fun point => position ≤ point.1) ++ ring.points).map (·.2) := by
  rw [walk, hcoherent.pointsAscend.dropWhile_eq]

end Ring

end Custody
