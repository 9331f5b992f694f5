/-
# No entry is armed twice

The nodes of a fleet may be in different stages of different transitions.  What keeps them apart is
that no node leaves a snapshot behind which another has yet to prepare for: of any two nodes, the
oldest snapshot that bounds the one is never newer than the newest that bounds the other.  Since the
snapshots come in sequence, two nodes so placed have a bound in common; and under one snapshot a
segment is primary for one node only.
-/

import Custody.Fleet
import Custody.Proofs.Node.Moves
import Custody.Proofs.Snapshot

namespace Custody

section Sequence

variable {sequence : List Snapshot}

/-- In a sequence of ever newer snapshots, no two have the same topology. -/
theorem eq_of_topology_eq (hordered : sequence.Pairwise (·.topology < ·.topology))
    {first second : Snapshot} (hfirst : first ∈ sequence) (hsecond : second ∈ sequence)
    (hsame : first.topology = second.topology) : first = second := by
  have hapart : sequence.Pairwise fun earlier later =>
      earlier.topology = later.topology → earlier = later := by
    apply hordered.imp
    intro earlier later hlt heq
    exact absurd (heq ▸ hlt) (UInt64.lt_irrefl _)
  refine hapart.forall_of_forall_of_flip (fun _ _ _ => rfl) ?_ hfirst hsecond hsame
  apply hordered.imp
  intro earlier later hlt heq
  exact absurd (heq ▸ hlt) (UInt64.lt_irrefl _)

/-- The second of two neighbours is newer. -/
theorem lt_of_neighbours (hordered : sequence.Pairwise (·.topology < ·.topology))
    {old new : Snapshot} (hnext : [old, new] <:+: sequence) : old.topology < new.topology := by
  have hpair := hordered.sublist hnext.sublist
  simpa using hpair

/-- Nothing lies between two neighbours. -/
theorem le_of_neighbours (hordered : sequence.Pairwise (·.topology < ·.topology))
    {old new other : Snapshot} (hnext : [old, new] <:+: sequence) (hmem : other ∈ sequence)
    (hnewer : old.topology < other.topology) : new.topology ≤ other.topology := by
  obtain ⟨earlier, later, rfl⟩ := hnext
  rw [List.append_assoc, List.pairwise_append] at hordered
  obtain ⟨-, htail, hearlier⟩ := hordered
  rw [List.append_assoc, List.mem_append] at hmem
  rcases hmem with hbefore | hafter
  · have holder := hearlier other hbefore old List.mem_cons_self
    exact absurd (UInt64.lt_trans hnewer holder) (UInt64.lt_irrefl _)
  · obtain ⟨-, hrest⟩ := List.pairwise_cons.mp htail
    rcases List.mem_cons.mp hafter with rfl | hrestmem
    · exact absurd hnewer (UInt64.lt_irrefl _)
    · rcases List.mem_cons.mp hrestmem with rfl | hlater
      · exact UInt64.le_refl _
      · exact UInt64.le_of_lt ((List.pairwise_cons.mp hrest).1 other hlater)

namespace Stage

variable {stage : Stage}

/-- The bounds of a stage that follows a sequence are in it. -/
theorem Follows.mem (hfollows : stage.Follows sequence) {snapshot : Snapshot}
    (hbound : snapshot ∈ stage.bounds) : snapshot ∈ sequence := by
  cases stage with
  | steady current =>
      rw [List.mem_singleton.mp hbound]
      exact hfollows
  | announced old new | narrowing old new =>
      rw [List.mem_singleton.mp hbound]
      exact hfollows.subset List.mem_cons_self
  | bridging old new => exact hfollows.subset hbound
  | widened old new =>
      rw [List.mem_singleton.mp hbound]
      exact hfollows.subset (List.mem_cons_of_mem _ List.mem_cons_self)

/-- Whatever lies between the oldest and the newest bound is a bound. -/
theorem Follows.mem_bounds (hordered : sequence.Pairwise (·.topology < ·.topology))
    (hfollows : stage.Follows sequence) {other : Snapshot} (hmem : other ∈ sequence)
    (hold : stage.oldest.topology ≤ other.topology)
    (hnew : other.topology ≤ stage.newest.topology) : other ∈ stage.bounds := by
  by_cases hsame : stage.oldest.topology = other.topology
  · have holdest := hfollows.mem stage.oldest_mem_bounds
    rw [← eq_of_topology_eq hordered holdest hmem hsame]
    exact stage.oldest_mem_bounds
  · have hlt : stage.oldest.topology < other.topology :=
      UInt64.lt_of_le_of_ne hold hsame
    have hnewest : stage.newest = other := by
      refine eq_of_topology_eq hordered (hfollows.mem stage.newest_mem_bounds) hmem ?_
      refine UInt64.le_antisymm ?_ hnew
      cases stage with
      | bridging old new => exact le_of_neighbours hordered hfollows hmem hlt
      | _ => exact hold
    rw [← hnewest]
    exact stage.newest_mem_bounds

/-- No bound is newer than the newest. -/
theorem Follows.le_newest (hordered : sequence.Pairwise (·.topology < ·.topology))
    (hfollows : stage.Follows sequence) {snapshot : Snapshot} (hbound : snapshot ∈ stage.bounds) :
    snapshot.topology ≤ stage.newest.topology := by
  cases stage with
  | bridging old new =>
      have hside : snapshot = old ∨ snapshot = new := by simpa [bounds] using hbound
      rcases hside with rfl | rfl
      · exact UInt64.le_of_lt (lt_of_neighbours hordered hfollows)
      · exact UInt64.le_refl _
  | _ =>
      rw [List.mem_singleton.mp hbound]
      exact UInt64.le_refl _

/-- Two stages of which neither has left the other behind have a bound in common. -/
theorem Follows.common_bound (hordered : sequence.Pairwise (·.topology < ·.topology))
    {first second : Stage} (hfirst : first.Follows sequence) (hsecond : second.Follows sequence)
    (hahead : first.oldest.topology ≤ second.newest.topology)
    (hbehind : second.oldest.topology ≤ first.newest.topology) :
    ∃ snapshot ∈ first.bounds, snapshot ∈ second.bounds := by
  rcases UInt64.le_total first.oldest.topology second.oldest.topology with hle | hle
  · have hmem := hsecond.mem second.oldest_mem_bounds
    exact ⟨second.oldest, hfirst.mem_bounds hordered hmem hle hbehind, second.oldest_mem_bounds⟩
  · have hmem := hfirst.mem first.oldest_mem_bounds
    exact ⟨first.oldest, first.oldest_mem_bounds, hsecond.mem_bounds hordered hmem hle hahead⟩

end Stage

end Sequence

namespace Node

variable {K : Type} {node : Node K} {sequence : List Snapshot}

/-- A node that has prepared for a topology is bounded by it or by something newer. -/
theorem Aligned.le_newest (haligned : node.Aligned)
    (hordered : sequence.Pairwise (·.topology < ·.topology))
    (hfollows : node.stage.Follows sequence) {topology : TopologyId}
    (hprepared : node.hasPrepared topology = true) :
    topology ≤ node.stage.newest.topology := by
  rcases Bool.or_eq_true_iff.mp hprepared with hcurrent | hinstalling
  · have hbound := hfollows.le_newest hordered haligned.current_mem_bounds
    exact UInt64.le_trans (of_decide_eq_true hcurrent) hbound
  · obtain ⟨listener, hlistening⟩ := haligned.listening
    obtain ⟨installation, hsome, hdealt⟩ := (Option.any_eq_true _ _).mp hinstalling
    have hparts : installation.transition.new.topology = topology ∧ installation.unheard = [] ∧
        installation.cancelling = none := by
      simpa [and_assoc] using hdealt
    obtain ⟨rfl, hheard, hresting⟩ := hparts
    have hnewest : node.stage.newest = installation.transition.new := by
      rw [stage_of_installing hlistening hsome, Installation.stage]
      cases hphase : installation.phase <;> simp [hresting, hheard, Stage.newest]
    rw [hnewest]
    exact UInt64.le_refl _

/-- A permitted step keeps a node in the sequence. -/
theorem Moves.follows {action : NodeAction K} {before after : Stage}
    (hmoves : node.Moves action before after) (hfollows : before.Follows sequence)
    (hpermits : ∀ next, action = .beginInstall next → node.installation = none →
      node.notifier.topology < next.topology → [node.notifier.current, next] <:+: sequence) :
    after.Follows sequence := by
  cases hmoves with
  | begins next haction hidle hnewer => exact hpermits next haction hidle hnewer
  | ends old new => exact hfollows.subset (List.mem_cons_of_mem _ List.mem_cons_self)
  | _ => exact hfollows

/-- The newest bound only gets newer. -/
theorem Moves.newest_le {action : NodeAction K} {before after : Stage}
    (hmoves : node.Moves action before after)
    (hordered : sequence.Pairwise (·.topology < ·.topology))
    (hfollows : before.Follows sequence) : before.newest.topology ≤ after.newest.topology := by
  cases hmoves with
  | losesNothing old new => exact UInt64.le_of_lt (lt_of_neighbours hordered hfollows)
  | givesUp old new => exact UInt64.le_of_lt (lt_of_neighbours hordered hfollows)
  | _ => exact UInt64.le_refl _

/-- The oldest bound stays what it is, unless the listener hears that the new snapshot is in
effect. -/
theorem Moves.oldest_eq {action : NodeAction K} {before after : Stage}
    (hmoves : node.Moves action before after) :
    after.oldest = before.oldest ∨
      ∃ installation, action = .advanceInstall ∧ node.installation = some installation ∧
        installation.phase = .post ∧ installation.unheard ≠ [] ∧
        after.oldest = installation.transition.new := by
  cases hmoves with
  | widens installation haction hinstalling hphase hunheard =>
      exact Or.inr ⟨installation, haction, hinstalling, hphase, hunheard, rfl⟩
  | _ => exact Or.inl rfl

end Node

namespace Fleet

variable {Member K : Type}

/-- The nodes of a fleet stand close together in a sequence of snapshots: each is aligned, and none
has left behind what another has yet to prepare for. -/
structure Close (sequence : List Snapshot) (fleet : Fleet Member K) : Prop where
  aligned : ∀ member, (fleet member).Aligned
  follows : ∀ member, (fleet member).stage.Follows sequence
  together : ∀ first second,
    (fleet first).stage.oldest.topology ≤ (fleet second).stage.newest.topology

variable [DecidableEq Member] [DecidableEq K] {sequence : List Snapshot} {fleet : Fleet Member K}
  {member : Member} {action : NodeAction K}

/-- The node that takes a step takes it. -/
theorem act_self (fleet : Fleet Member K) (member : Member) (action : NodeAction K) :
    fleet.act (member, action) member = (fleet member).act action := if_pos rfl

/-- The other nodes take no part in it. -/
theorem act_other (fleet : Fleet Member K) (action : NodeAction K) {other : Member}
    (hother : other ≠ member) : fleet.act (member, action) other = fleet other := if_neg hother

/-- No node leaves behind what another has yet to prepare for. -/
theorem Close.oldest_act_le (hclose : fleet.Close sequence)
    (hordered : sequence.Pairwise (·.topology < ·.topology))
    (hpermits : fleet.Permits sequence member action) (first second : Member) :
    (fleet.act (member, action) first).stage.oldest.topology ≤
      (fleet second).stage.newest.topology := by
  by_cases hself : first = member
  · subst hself
    rw [act_self]
    have hmoves := (hclose.aligned first).moves action
    rcases hmoves.oldest_eq with hsame | hheard
    · rw [hsame]
      exact hclose.together first second
    · obtain ⟨installation, rfl, hinstalling, hphase, hunheard, hnew⟩ := hheard
      rw [hnew]
      have hprepared := hpermits installation hinstalling hphase hunheard second
      exact (hclose.aligned second).le_newest hordered (hclose.follows second) hprepared
  · rw [act_other fleet action hself]
    exact hclose.together first second

/-- No node gives up its newest bound. -/
theorem Close.newest_le_act (hclose : fleet.Close sequence)
    (hordered : sequence.Pairwise (·.topology < ·.topology)) (second : Member) :
    (fleet second).stage.newest.topology ≤
      (fleet.act (member, action) second).stage.newest.topology := by
  by_cases hself : second = member
  · subst hself
    rw [act_self]
    exact ((hclose.aligned second).moves action).newest_le hordered (hclose.follows second)
  · rw [act_other fleet action hself]
    exact UInt64.le_refl _

/-- Every step keeps the nodes of a fleet aligned. -/
theorem act_aligned (haligned : ∀ member, (fleet member).Aligned) (step : Member × NodeAction K)
    (member : Member) : (fleet.act step member).Aligned := by
  by_cases hself : member = step.1
  · rw [hself, act_self]
    exact (haligned step.1).act step.2
  · rw [act_other fleet step.2 hself]
    exact haligned member

/-- A permitted step keeps a fleet close together. -/
theorem Close.act (hclose : fleet.Close sequence)
    (hordered : sequence.Pairwise (·.topology < ·.topology))
    (hpermits : fleet.Permits sequence member action) :
    (fleet.act (member, action)).Close sequence := by
  refine ⟨act_aligned hclose.aligned _, fun other => ?_, fun first second => ?_⟩
  · by_cases hself : other = member
    · rw [hself, act_self]
      refine ((hclose.aligned member).moves action).follows (hclose.follows member) ?_
      rintro next rfl hidle hnewer
      exact hpermits hidle hnewer
    · rw [act_other fleet action hself]
      exact hclose.follows other
  · have holdest := hclose.oldest_act_le hordered hpermits first second
    exact UInt64.le_trans holdest (hclose.newest_le_act hordered second)

/-- A run through which the promise is kept keeps a fleet close together. -/
theorem Close.run (hclose : fleet.Close sequence)
    (hordered : sequence.Pairwise (·.topology < ·.topology))
    {steps : List (Member × NodeAction K)} (hkeeps : fleet.Keeps sequence steps) :
    (fleet.run steps).Close sequence := by
  induction steps generalizing fleet with
  | nil => exact hclose
  | cons step later ih =>
      obtain ⟨hpermits, hlater⟩ := hkeeps
      exact ih (hclose.act hordered hpermits) hlater

/-- A run changes neither the names of the nodes nor the segments of their keys. -/
theorem run_identity (haligned : ∀ member, (fleet member).Aligned)
    (steps : List (Member × NodeAction K)) (member : Member) :
    (fleet.run steps member).localNode = (fleet member).localNode ∧
      (fleet.run steps member).listener.partitioner = (fleet member).listener.partitioner := by
  induction steps generalizing fleet with
  | nil => exact ⟨rfl, rfl⟩
  | cons step later ih =>
      obtain ⟨hlocal, hpartitioner⟩ := ih (act_aligned haligned step)
      by_cases hself : member = step.1
      · obtain ⟨hlocal', hpartitioner'⟩ :=
          Node.act_identity (haligned member).registered step.2
        rw [hself, act_self] at hlocal hpartitioner
        rw [hself] at hlocal' hpartitioner' ⊢
        exact ⟨hlocal.trans hlocal', hpartitioner.trans hpartitioner'⟩
      · rw [act_other fleet step.2 hself] at hlocal hpartitioner
        exact ⟨hlocal, hpartitioner⟩

omit [DecidableEq Member] [DecidableEq K] in
/-- A fleet whose nodes have just registered their listeners at the first snapshot of a sequence is
close together. -/
theorem close_register {name : Member → NodeId} {initial : Snapshot} {later : List Snapshot}
    {partitioner : Partitioner K} {config : Member → Config} {now : Member → Instant}
    {fresh : Fleet Member K}
    (hnew : ∀ member, Node.new (name member) initial partitioner (config member) (now member) =
      .ok (fresh member)) :
    Close (initial :: later) fun member => (fresh member).register := by
  have hstage : ∀ member, (fresh member).register.stage = .steady initial := by
    intro member
    obtain hfresh := Node.new_eq_ok (hnew member)
    rw [hfresh]
    rfl
  refine ⟨fun member => (Node.aligned_register (hnew member)).1, fun member => ?_,
    fun first second => ?_⟩
  · rw [hstage]
    exact List.mem_cons_self
  · rw [hstage, hstage]
    exact UInt64.le_refl _

/-- No entry is ever armed on two nodes at once, whatever the nodes go through and however their
steps follow each other, as long as the source of the snapshots keeps its promise. -/
theorem run_exclusive {name : Member → NodeId} {initial : Snapshot} {later : List Snapshot}
    {partitioner : Partitioner K} {config : Member → Config} {now : Member → Instant}
    {fresh : Fleet Member K} (hnames : ∀ first second, name first = name second → first = second)
    (hnew : ∀ member, Node.new (name member) initial partitioner (config member) (now member) =
      .ok (fresh member))
    (hordered : (initial :: later).Pairwise (·.topology < ·.topology))
    (steps : List (Member × NodeAction K))
    (hkeeps : Keeps (initial :: later) (fun member => (fresh member).register) steps)
    {first second : Member} (hapart : first ≠ second) (id : K) :
    ¬ ((run (fun member => (fresh member).register) steps first).scheduler.contains id = true ∧
      (run (fun member => (fresh member).register) steps second).scheduler.contains id = true) := by
  rintro ⟨hfirst, hsecond⟩
  have hstart : Close (initial :: later) fun member => (fresh member).register :=
    close_register hnew
  have hclose := hstart.run hordered hkeeps
  obtain ⟨snapshot, hbound, hcommon⟩ := (hclose.follows first).common_bound hordered
    (hclose.follows second) (hclose.together first second) (hclose.together second first)
  have hprimary : ∀ member,
      snapshot ∈ (run (fun member => (fresh member).register) steps member).stage.bounds →
      (run (fun member => (fresh member).register) steps member).scheduler.contains id = true →
      partitioner.segmentOf id ∈ snapshot.primarySegments (name member) := by
    intro member hmember harmed
    obtain ⟨arming, hmem, rfl⟩ := Scheduler.contains_eq_true.mp harmed
    obtain ⟨hsame, hplaced⟩ := run_identity hstart.aligned steps member
    obtain ⟨-, hlocal, hpartitioner⟩ := Node.aligned_register (hnew member)
    rw [← hpartitioner, ← hplaced, ← hlocal, ← hsame]
    exact (hclose.aligned member).armed arming hmem snapshot hmember
  have hname := Snapshot.eq_of_mem_primarySegments (hprimary first hbound hfirst)
    (hprimary second hcommon hsecond)
  exact hapart (hnames first second hname)

/-- Two nodes swap their segments.  The first has taken up segment 1 while the second, which gave it
up, has yet to hear that the swap is in effect; both are asked to arm the same entry. -/
def swappingSteps (swapped : Snapshot) : List (Bool × NodeAction UInt64) :=
  [(false, .schedule 0 50), (true, .schedule 1 50), (false, .beginInstall swapped),
    (true, .beginInstall swapped), (false, .advanceInstall), (false, .advanceInstall),
    (false, .advanceInstall), (true, .advanceInstall), (true, .schedule 3 60),
    (true, .advanceInstall), (false, .advanceInstall), (false, .schedule 1 70),
    (true, .schedule 1 70)]

/-- After such a run the entry is armed on the first node, so it is not on the second. -/
theorem run_exclusive_swappingSteps :
    ∃ (initial swapped : Snapshot) (fresh : Fleet Bool UInt64),
      (∀ member, Node.new (cond member 1 0) initial (.modulo 2) { segmentCount := 2 } 0 =
        .ok (fresh member)) ∧
      Keeps [initial, swapped] (fun member => (fresh member).register) (swappingSteps swapped) ∧
      (run (fun member => (fresh member).register) (swappingSteps swapped) false).scheduler.contains
        1 = true ∧
      (run (fun member => (fresh member).register) (swappingSteps swapped) true).scheduler.contains
        1 = false := by
  let initial : Snapshot := .ofParts 1 [0, 1] [[0], [1]]
  let swapped : Snapshot := .ofParts 2 [0, 1] [[1], [0]]
  let fresh : Fleet Bool UInt64 := fun member =>
    { notifier := .new (cond member 1 0) initial
      listener := ⟨.modulo 2, { segmentCount := 2 }, .new "scheduler-reconciler", {}⟩
      scheduler := .new 0, store := {}, registration := none, observers := [], seen := []
      installation := none }
  have hnew : ∀ member, Node.new (cond member 1 0) initial (.modulo 2) { segmentCount := 2 } 0 =
      .ok (fresh member) := fun member => rfl
  have hkeeps : Keeps [initial, swapped] (fun member => (fresh member).register)
      (swappingSteps swapped) := by
    refine ⟨trivial, trivial, fun _ _ => List.infix_rfl, fun _ _ => List.infix_rfl, ?_, ?_, ?_, ?_,
      trivial, ?_, ?_, trivial, trivial, trivial⟩
    all_goals
      intro installation hinstalling hphase hunheard other
      obtain rfl := Option.some.inj hinstalling
    -- The first node hears the second announcement when the other has prepared; nobody else does.
    case refine_6 => cases other <;> rfl
    all_goals exact nomatch hphase
  have harmed : (run (fun member => (fresh member).register) (swappingSteps swapped)
      false).scheduler.contains 1 = true := by decide
  refine ⟨initial, swapped, fresh, hnew, hkeeps, harmed, ?_⟩
  have hexclusive := run_exclusive (by decide) hnew (by decide) _ hkeeps Bool.false_ne_true 1
  rw [harmed] at hexclusive
  simpa using hexclusive

end Fleet

end Custody
