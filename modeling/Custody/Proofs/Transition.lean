/-
# What an announcement asks for

An announcement asks for something only in its own phase: losses are dealt with before the
transition applies and gains after.  When it asks for nothing, the segments before and after are
already comparable, so that the segments owned on both sides are those of one side.
-/

import Custody.Transition

namespace Custody

namespace OwnershipChange

variable {K : Type} {partitioner : Partitioner K} {event : TopologyEvent}

/-- Nothing is asked before a transition that loses nothing, and after one that gains nothing. -/
theorem of_unchanged (hchange : ofEvent partitioner event = unchanged) :
    (event.phase = .pre ∧ ∀ segment ∈ event.old.primarySegments event.localNode,
      segment ∈ event.new.primarySegments event.localNode) ∨
    (event.phase = .post ∧ ∀ segment ∈ event.new.primarySegments event.localNode,
      segment ∈ event.old.primarySegments event.localNode) := by
  cases hphase : event.phase with
  | pre =>
      left
      simp only [ofEvent, hphase] at hchange
      split at hchange
      · next hall =>
          exact ⟨rfl, SegmentSet.includes_eq_true.mp hall⟩
      · cases hchange
  | post =>
      right
      simp only [ofEvent, hphase] at hchange
      split at hchange
      · next hall =>
          exact ⟨rfl, SegmentSet.includes_eq_true.mp hall⟩
      · cases hchange

/-- A loss is announced before the transition applies, with the segments owned on both sides. -/
theorem of_losing {kept : SegmentLocality K} {lost : SegmentSet}
    (hchange : ofEvent partitioner event = losing kept lost) :
    event.phase = .pre ∧
      kept = (SegmentLocality.ofSnapshot partitioner event.new event.localNode).keptSince
        (.ofSnapshot partitioner event.old event.localNode) := by
  cases hphase : event.phase with
  | pre =>
      simp only [ofEvent, hphase] at hchange
      split at hchange
      · cases hchange
      · exact ⟨rfl, (losing.inj hchange).1.symm⟩
  | post =>
      simp only [ofEvent, hphase] at hchange
      split at hchange <;> cases hchange

/-- A gain is announced after the transition applied, with the localities of both sides. -/
theorem of_gained {old new : SegmentLocality K} {segments : SegmentSet}
    (hchange : ofEvent partitioner event = gained old new segments) :
    event.phase = .post ∧
      old = .ofSnapshot partitioner event.old event.localNode ∧
      new = .ofSnapshot partitioner event.new event.localNode ∧
      segments = (new.gainedSince old).segments := by
  cases hphase : event.phase with
  | pre =>
      simp only [ofEvent, hphase] at hchange
      split at hchange <;> cases hchange
  | post =>
      simp only [ofEvent, hphase] at hchange
      split at hchange
      · cases hchange
      · obtain ⟨rfl, rfl, rfl⟩ := gained.inj hchange
        exact ⟨rfl, rfl, rfl, rfl⟩

/-- A node is told of no gain when all that it has afterwards it had before. -/
theorem ne_gained {old new : SegmentLocality K} {segments : SegmentSet}
    (hhad : ∀ segment ∈ event.new.primarySegments event.localNode,
      segment ∈ event.old.primarySegments event.localNode) :
    ofEvent partitioner event ≠ gained old new segments := by
  intro hchange
  obtain ⟨hphase, -, -, -⟩ := of_gained hchange
  have hall : (SegmentLocality.ofSnapshot partitioner event.old event.localNode).containsAll
      (.ofSnapshot partitioner event.new event.localNode) = true :=
    SegmentSet.includes_eq_true.mpr hhad
  simp only [ofEvent, hphase, hall, if_true] at hchange
  cases hchange

/-- A node is told of no loss when it keeps all that it had. -/
theorem ne_losing {kept : SegmentLocality K} {lost : SegmentSet}
    (hkeeps : ∀ segment ∈ event.old.primarySegments event.localNode,
      segment ∈ event.new.primarySegments event.localNode) :
    ofEvent partitioner event ≠ losing kept lost := by
  intro hchange
  obtain ⟨hphase, -⟩ := of_losing hchange
  have hall : (SegmentLocality.ofSnapshot partitioner event.new event.localNode).containsAll
      (.ofSnapshot partitioner event.old event.localNode) = true :=
    SegmentSet.includes_eq_true.mpr hkeeps
  simp only [ofEvent, hphase, hall, if_true] at hchange
  cases hchange

end OwnershipChange

end Custody
