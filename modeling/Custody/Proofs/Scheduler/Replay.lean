/-
# An announcement that is heard again

What a scheduler goes through by an announcement depends on what the announcement asks for, and on
the stored entries that a scheduling pass lists.  Going through it a second time changes nothing
more.  Going through both announcements of a transition a second time does change something: the
first takes back what the second had armed.  The second then arms it again, to the same deadlines, so
that in the end nothing has changed.

This does not depend on where the gate stood at the beginning.  A gate that was told of a newer
topology refuses both announcements each time.
-/

import Custody.Proofs.Scheduler.Accounts
import Custody.Proofs.Scheduler.Placement
import Custody.Proofs.Transition

namespace Custody

variable {K : Type}

/-- The stored entries under a locality. -/
def SegmentLocality.candidates (locality : SegmentLocality K) (stored : List (Candidate K)) :
    List (Candidate K) :=
  stored.filter fun entry => locality.owns entry.id

/-- What was gained was not kept. -/
theorem SegmentLocality.not_kept_of_gained {old new : SegmentLocality K} {id : K}
    (hgained : (new.gainedSince old).owns id = true) : (new.keptSince old).owns id = false := by
  have hout : ¬ new.partitioner.segmentOf id ∈ old.segments :=
    (SegmentSet.mem_diff.mp (SegmentSet.contains_eq_true.mp hgained)).2
  apply SegmentSet.contains_eq_false.mpr
  intro hkept
  exact hout (SegmentSet.mem_inter.mp hkept).2

namespace Scheduler

/-- A gate that was told of a topology accepts it again. -/
theorem le_of_told {gate : Gate K} {topology : TopologyId} (htold : gate.topology = some topology) :
    ∀ current, gate.topology = some current → current ≤ topology := by
  intro current hcurrent
  obtain rfl := Option.some.inj (htold.symm.trans hcurrent)
  exact UInt64.le_refl _

/-- A gate that was told of a locality, or refused it, is not moved by it again. -/
theorem install_of_gate {scheduler told : Scheduler K} {topology : TopologyId}
    {locality : Locality K}
    (hgate : scheduler.gate = (told.install topology locality).2.gate) :
    (scheduler.install topology locality).2 = scheduler := by
  rcases told.install_cases topology locality with ⟨newer, htold, holder, h⟩ | ⟨-, h⟩
  · rw [h] at hgate
    rw [install_of_lt (hgate ▸ htold) holder]
  · rw [h] at hgate
    rw [install_of_le (le_of_told (congrArg Gate.topology hgate))]
    show { scheduler with gate := ⟨some topology, locality⟩ } = scheduler
    rw [← show scheduler.gate = ⟨some topology, locality⟩ from hgate]

/-- A scheduler whose gate stands at what is kept, with nothing else armed. -/
structure Narrowed (kept : SegmentLocality K) (scheduler : Scheduler K) : Prop where
  gate : scheduler.gate = ⟨some kept.topology, .segments kept⟩
  entries : ∀ entry ∈ scheduler.entries, kept.owns entry.id = true

theorem Narrowed.filter_entries {kept : SegmentLocality K} {scheduler : Scheduler K}
    (hnarrowed : Narrowed kept scheduler) :
    scheduler.entries.filter (fun entry => kept.owns entry.id) = scheduler.entries :=
  List.filter_eq_self.mpr hnarrowed.entries

variable [DecidableEq K]

/-- What a scheduling pass does that goes through all stored entries that were gained. -/
def placeGained (scheduler : Scheduler K) (stored : List (Candidate K))
    (old new : SegmentLocality K) : Except Error Report × Scheduler K :=
  scheduler.placeAll (new.gainedSince old) (((new.gainedSince old).candidates stored).map .ok)
    none {}

/-- What a scheduler goes through by an announcement, when the pass that it asks for runs to its end
over the stored entries. -/
def undergo (scheduler : Scheduler K) (stored : List (Candidate K)) :
    OwnershipChange K → Scheduler K
  | .unchanged => scheduler
  | .losing kept _ => (scheduler.cancelUnowned kept.topology (.segments kept)).2
  | .gained old new _ =>
      ((scheduler.install new.topology (.segments new)).2.placeGained stored old new).2

variable {scheduler : Scheduler K} {stored : List (Candidate K)}

theorem Alike.undergo {first second : Scheduler K} (halike : first.Alike second)
    (stored : List (Candidate K)) (change : OwnershipChange K) :
    (first.undergo stored change).Alike (second.undergo stored change) := by
  cases change with
  | unchanged => exact halike
  | losing kept lost => exact halike.cancelUnowned _ _
  | gained old new segments => exact (halike.install _ _).placeAll _ _ _

theorem changes_undergo (scheduler : Scheduler K) (stored : List (Candidate K))
    (change : OwnershipChange K) : scheduler.Changes (scheduler.undergo stored change) := by
  cases change with
  | unchanged => exact .refl scheduler
  | losing kept lost => exact .cancelUnowned scheduler _ _
  | gained old new segments => exact (Changes.install scheduler _ _).trans (.placeAll _ _ _ _ _)

/-- A loss that is accepted leaves the gate at what is kept, and nothing else armed. -/
theorem undergo_losing_of_le {kept : SegmentLocality K}
    (haccepted : ∀ current, scheduler.gate.topology = some current → current ≤ kept.topology)
    (stored : List (Candidate K)) (lost : SegmentSet) :
    (scheduler.undergo stored (.losing kept lost)).gate = ⟨some kept.topology, .segments kept⟩ ∧
      (scheduler.undergo stored (.losing kept lost)).closed = scheduler.closed ∧
      (scheduler.undergo stored (.losing kept lost)).entries =
        scheduler.entries.filter fun entry => kept.owns entry.id := by
  simp only [undergo, cancelUnowned_of_le haccepted]
  exact ⟨rfl, rfl, entries_disarm _ (.segments kept)⟩

/-- A gate that was told of a newer topology refuses every loss. -/
theorem undergo_losing_of_lt {kept : SegmentLocality K} {newer : TopologyId}
    (htold : scheduler.gate.topology = some newer) (holder : kept.topology < newer)
    (stored : List (Candidate K)) (lost : SegmentSet) :
    scheduler.undergo stored (.losing kept lost) = scheduler := by
  simp only [undergo, cancelUnowned_of_lt htold holder]

/-- A pass arms some of what was gained, behind what was armed before. -/
theorem extends_placeGained (scheduler : Scheduler K) (stored : List (Candidate K))
    (old new : SegmentLocality K) :
    Extends (new.gainedSince old) ((new.gainedSince old).candidates stored) scheduler
      (scheduler.placeGained stored old new).2 :=
  extends_placeAll _ _ _ _

theorem extends_undergo_gained (scheduler : Scheduler K) (stored : List (Candidate K))
    (old new : SegmentLocality K) (segments : SegmentSet) :
    Extends (new.gainedSince old) ((new.gainedSince old).candidates stored)
      (scheduler.install new.topology (.segments new)).2
      (scheduler.undergo stored (.gained old new segments)) :=
  extends_placeGained _ stored old new

theorem undergo_gained_frame (scheduler : Scheduler K) (stored : List (Candidate K))
    (old new : SegmentLocality K) (segments : SegmentSet) :
    (scheduler.undergo stored (.gained old new segments)).gate =
        (scheduler.install new.topology (.segments new)).2.gate ∧
      (scheduler.undergo stored (.gained old new segments)).closed = scheduler.closed ∧
      ∃ added, (scheduler.undergo stored (.gained old new segments)).entries =
          scheduler.entries ++ added ∧
        ∀ entry ∈ added, (new.gainedSince old).owns entry.id = true := by
  have hextends := scheduler.extends_undergo_gained stored old new segments
  obtain ⟨gate, hinstall⟩ := scheduler.install_eq new.topology (.segments new)
  obtain ⟨added, harmed, hadded⟩ := hextends.armed
  refine ⟨hextends.gate, ?_, added.map Arming.candidate, ?_, ?_⟩
  · rw [hextends.closed, hinstall]
  · rw [entries, harmed, hinstall, List.map_append]
    rfl
  · intro entry hmem
    obtain ⟨arming, harming, rfl⟩ := List.mem_map.mp hmem
    exact hadded arming harming

@[simp] theorem now_undergo (scheduler : Scheduler K) (stored : List (Candidate K))
    (change : OwnershipChange K) : (scheduler.undergo stored change).now = scheduler.now := by
  cases change with
  | unchanged => rfl
  | losing kept lost =>
      rcases scheduler.cancelUnowned_cases kept.topology (.segments kept) with
        ⟨newer, -, -, h⟩ | ⟨-, h⟩
      · rw [undergo, h]
      · rw [undergo, h]
        rfl
  | gained old new segments =>
      obtain ⟨gate, hinstall⟩ := scheduler.install_eq new.topology (.segments new)
      rw [(scheduler.extends_undergo_gained stored old new segments).now, hinstall]

theorem TimersAhead.undergo (hahead : scheduler.TimersAhead)
    (hstored : ∀ entry ∈ stored, scheduler.now < entry.deadline) (change : OwnershipChange K) :
    (scheduler.undergo stored change).TimersAhead := by
  cases change with
  | unchanged => exact hahead
  | losing kept lost => exact hahead.cancelUnowned _ _
  | gained old new segments =>
      have hextends := scheduler.extends_undergo_gained stored old new segments
      obtain ⟨gate, hinstall⟩ := scheduler.install_eq new.topology (.segments new)
      apply hextends.timersAhead (hahead.install _ _)
      intro candidate hmem
      rw [hinstall]
      exact hstored candidate (List.mem_filter.mp hmem).1

/-- An announcement that is heard a second time changes nothing more. -/
theorem undergo_undergo (scheduler : Scheduler K) (stored : List (Candidate K))
    (change : OwnershipChange K) :
    ((scheduler.undergo stored change).undergo stored change).Alike
      (scheduler.undergo stored change) := by
  cases change with
  | unchanged => exact .refl _
  | losing kept lost =>
      rcases scheduler.install_cases kept.topology (.segments kept) with
        ⟨newer, htold, holder, -⟩ | ⟨hle, -⟩
      · rw [undergo_losing_of_lt htold holder, undergo_losing_of_lt htold holder]
        exact .refl _
      · obtain ⟨hgate, -, hentries⟩ := undergo_losing_of_le hle stored lost
        obtain ⟨hgate', hclosed', hentries'⟩ :=
          undergo_losing_of_le (le_of_told (congrArg Gate.topology hgate)) stored lost
        refine ⟨hgate'.trans hgate.symm, hclosed', hentries'.trans ?_⟩
        rw [hentries, List.filter_filter]
        simp only [Bool.and_self]
  | gained old new segments =>
      have hextends := scheduler.extends_undergo_gained stored old new segments
      show ((Scheduler.install _ _ _).2.placeGained _ _ _).2.Alike _
      rw [install_of_gate hextends.gate]
      exact alike_placeAll _ (not_takes_placeAll _ _ _ _) _

namespace Narrowed

variable {kept : SegmentLocality K}

theorem of_undergo
    (haccepted : ∀ current, scheduler.gate.topology = some current → current ≤ kept.topology)
    (stored : List (Candidate K)) (lost : SegmentSet) :
    Narrowed kept (scheduler.undergo stored (.losing kept lost)) := by
  obtain ⟨hgate, -, hentries⟩ := undergo_losing_of_le haccepted stored lost
  refine ⟨hgate, fun entry hmem => ?_⟩
  rw [hentries] at hmem
  exact (List.mem_filter.mp hmem).2

theorem fireDue (hnarrowed : Narrowed kept scheduler) : Narrowed kept scheduler.fireDue := by
  have hgated := gated_fireDue scheduler
  refine ⟨hgated.gate.trans hnarrowed.gate, fun entry hmem => ?_⟩
  obtain ⟨arming, harming, rfl⟩ := List.mem_map.mp hmem
  rcases hgated.armed arming harming with hbefore | howned
  · exact hnarrowed.entries _ (List.mem_map_of_mem hbefore)
  · rw [hnarrowed.gate] at howned
    exact howned

/-- Where nothing else is armed there is nothing to take back. -/
theorem undergo_losing (hnarrowed : Narrowed kept scheduler) (stored : List (Candidate K))
    (lost : SegmentSet) : (scheduler.undergo stored (.losing kept lost)).Alike scheduler := by
  obtain ⟨hgate, hclosed, hentries⟩ :=
    undergo_losing_of_le (le_of_told (congrArg Gate.topology hnarrowed.gate)) stored lost
  exact ⟨hgate.trans hnarrowed.gate.symm, hclosed, hentries.trans hnarrowed.filter_entries⟩

/-- Announcing a loss anew takes back what was gained meanwhile, and nothing else. -/
theorem undergo_losing_gained {old new : SegmentLocality K}
    (hnarrowed : Narrowed (new.keptSince old) scheduler) (stored : List (Candidate K))
    (segments lost : SegmentSet) :
    ((scheduler.undergo stored (.gained old new segments)).undergo stored
      (.losing (new.keptSince old) lost)).Alike scheduler := by
  have hwiden : scheduler.install new.topology (.segments new) = _ :=
    install_of_le (le_of_told (congrArg Gate.topology hnarrowed.gate)) _
  obtain ⟨hwidened, hclosed, added, hentries, hadded⟩ :=
    scheduler.undergo_gained_frame stored old new segments
  rw [hwiden] at hwidened
  obtain ⟨hgate, hclosed', hentries'⟩ := undergo_losing_of_le
    (le_of_told (congrArg Gate.topology hwidened) : ∀ current, _ →
      current ≤ (new.keptSince old).topology) stored lost
  have hnone : added.filter (fun entry => (new.keptSince old).owns entry.id) = [] := by
    apply List.filter_eq_nil_iff.mpr
    intro entry hmem hkept
    have hout := SegmentLocality.not_kept_of_gained (hadded entry hmem)
    exact Bool.noConfusion (hout.symm.trans hkept)
  refine ⟨hgate.trans hnarrowed.gate.symm, hclosed'.trans hclosed, hentries'.trans ?_⟩
  rw [hentries, List.filter_append, hnone, List.append_nil]
  exact hnarrowed.filter_entries

end Narrowed

section Both

variable (stored : List (Candidate K)) (partitioner : Partitioner K) (old new : Snapshot)
  (localNode : NodeId)

/-- A scheduler after both announcements of a transition to a node, at rest after each. -/
def undergoBoth (scheduler : Scheduler K) : Scheduler K :=
  let before := OwnershipChange.ofEvent partitioner ⟨.pre, old, new, localNode⟩
  let after := OwnershipChange.ofEvent partitioner ⟨.post, old, new, localNode⟩
  ((scheduler.undergo stored before).fireDue.undergo stored after).fireDue

/-- At rest after both announcements a scheduler has a timer for each armed entry. -/
theorem Accounted.undergoBoth {scheduler : Scheduler K} (haccounted : scheduler.Accounted) :
    (scheduler.undergoBoth stored partitioner old new localNode).Accounted ∧
      (scheduler.undergoBoth stored partitioner old new localNode).Timed := by
  let before := OwnershipChange.ofEvent partitioner ⟨.pre, old, new, localNode⟩
  let after := OwnershipChange.ofEvent partitioner ⟨.post, old, new, localNode⟩
  have hannounced : (scheduler.undergo stored before).fireDue.Accounted :=
    ((changes_undergo scheduler stored before).accounted haccounted).fireDue
  have htaken : ((scheduler.undergo stored before).fireDue.undergo stored after).Accounted :=
    (changes_undergo _ stored after).accounted hannounced
  exact ⟨htaken.fireDue, htaken.timed_fireDue⟩

/-- When the first announcement comes again, either it finds nothing to do, or it takes back exactly
what the second had armed. -/
theorem undergo_pre_again (scheduler : Scheduler K) :
    let before := OwnershipChange.ofEvent partitioner ⟨.pre, old, new, localNode⟩
    let after := OwnershipChange.ofEvent partitioner ⟨.post, old, new, localNode⟩
    let announced := (scheduler.undergo stored before).fireDue
    ((announced.undergo stored after).undergo stored before).Alike
        (announced.undergo stored after) ∨
      ((announced.undergo stored after).undergo stored before).Alike announced := by
  intro before after announced
  cases hbefore : before with
  | unchanged => exact Or.inl (.refl _)
  | gained past future segments => cases (OwnershipChange.of_gained hbefore).1
  | losing kept lost =>
      obtain ⟨-, hkept⟩ := OwnershipChange.of_losing hbefore
      -- A loss that was refused is refused again, since the gate is never told of less.
      rcases scheduler.install_cases kept.topology (.segments kept) with
        ⟨newer, htold, holder, -⟩ | ⟨hle, -⟩
      · left
        have hrefused : announced.gate.topology = some newer := by
          simp only [announced, hbefore, undergo_losing_of_lt htold holder]
          rw [(gated_fireDue scheduler).gate, htold]
        have hstill : (announced.undergo stored after).gate.topology = some newer := by
          cases hafter : after with
          | unchanged => exact hrefused
          | losing kept' lost' => cases (OwnershipChange.of_losing hafter).1
          | gained past future segments =>
              obtain ⟨-, -, rfl, -⟩ := OwnershipChange.of_gained hafter
              rw [(announced.undergo_gained_frame stored _ _ segments).1, install_of_lt hrefused,
                hrefused]
              rw [hkept] at holder
              exact holder
        rw [undergo_losing_of_lt hstill holder]
        exact .refl _
      · right
        have hnarrowed : Narrowed kept announced := by
          simp only [announced, hbefore]
          exact (Narrowed.of_undergo hle stored lost).fireDue
        cases hafter : after with
        | unchanged => exact hnarrowed.undergo_losing stored lost
        | losing kept' lost' => cases (OwnershipChange.of_losing hafter).1
        | gained past future segments =>
            obtain ⟨-, rfl, rfl, -⟩ := OwnershipChange.of_gained hafter
            rw [hkept] at hnarrowed ⊢
            exact hnarrowed.undergo_losing_gained stored segments lost

/-- Hearing both announcements of a transition again leaves gate and armed entries as they were. -/
theorem undergoBoth_undergoBoth (scheduler : Scheduler K)
    (hstored : ∀ entry ∈ stored, scheduler.now < entry.deadline) :
    ((scheduler.undergoBoth stored partitioner old new localNode).undergoBoth stored partitioner
      old new localNode).Alike (scheduler.undergoBoth stored partitioner old new localNode) := by
  let before := OwnershipChange.ofEvent partitioner ⟨.pre, old, new, localNode⟩
  let after := OwnershipChange.ofEvent partitioner ⟨.post, old, new, localNode⟩
  let announced := (scheduler.undergo stored before).fireDue
  let taken := announced.undergo stored after
  let again := taken.fireDue.undergo stored before
  have hnow : announced.now = scheduler.now := by rw [now_fireDue, now_undergo]
  have htaken : taken.fireDue.Alike taken :=
    ((timersAhead_fireDue _).undergo (hnow ▸ hstored) after).alike_fireDue
  have hnow' : taken.fireDue.now = scheduler.now := by rw [now_fireDue, now_undergo, hnow]
  have hagain : again.fireDue.Alike again :=
    ((timersAhead_fireDue taken).undergo (hnow'.symm ▸ hstored) before).alike_fireDue
  have hnow'' : again.fireDue.now = scheduler.now := by rw [now_fireDue, now_undergo, hnow']
  have hlast : (again.fireDue.undergo stored after).fireDue.Alike
      (again.fireDue.undergo stored after) :=
    ((timersAhead_fireDue again).undergo (hnow''.symm ▸ hstored) after).alike_fireDue
  -- The first announcement either changes nothing or leads back to `announced`, and from either of
  -- these the second one leads to `taken`.
  have hback : (again.undergo stored after).Alike taken := by
    have hsame : again.Alike (taken.undergo stored before) := htaken.undergo stored before
    rcases scheduler.undergo_pre_again stored partitioner old new localNode with hidle | hundone
    · have hstays := (hsame.trans hidle).undergo stored after
      exact hstays.trans (announced.undergo_undergo stored after)
    · exact (hsame.trans hundone).undergo stored after
  have hround := (hagain.undergo stored after).trans hback
  exact (hlast.trans hround).trans htaken.symm

end Both

end Scheduler

end Custody
