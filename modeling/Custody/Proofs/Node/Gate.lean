/-
# The gate follows the topology

The gate of a scheduler is never computed from the snapshot in effect.  It is narrowed by one
transition and widened by another, or by neither, and the topology it was told of may lag behind.
Whenever nothing is being installed it nevertheless stands at the segments of the snapshot in effect,
the level of owned segments is their number, and the topology it was told of has only risen.

The scheduler may be shut down at any moment; that closes it and leaves the gate where it is.
-/

import Custody.Proofs.Node.Ownership
import Custody.Proofs.Snapshot

namespace Custody

/-- One thing that happens to a node: a step, or the end of its scheduler. -/
inductive NodeEvent (K : Type) where
  | act (action : NodeAction K)
  /-- The scheduler takes everything back and arms nothing more. -/
  | shutdown

namespace Node

variable {K : Type}

/-- The gate was told of no older topology than before. -/
def Rises (before after : Node K) : Prop :=
  ∀ topology, before.scheduler.gate.topology = some topology →
    ∃ later, after.scheduler.gate.topology = some later ∧ topology ≤ later

/-- The level of owned segments is the number of segments at which the gate stands, unless a
cancellation pass is under way. -/
def Metered (node : Node K) : Prop :=
  (∃ locality, node.scheduler.gate.locality = .segments locality ∧
    node.listener.metrics.ownedSegments = Int64.ofNat locality.segments.size) ∨
  ∃ installation kept, node.installation = some installation ∧
    installation.cancelling = some kept

/-- The snapshot in effect passed its checks, and so did the one that is being installed. -/
structure Sound (node : Node K) : Prop where
  current : node.notifier.current.Checked
  next : ∀ installation, node.installation = some installation →
    installation.transition.new.Checked

namespace Rises

variable {first second third : Node K}

theorem of_gate (hgate : second.scheduler.gate = first.scheduler.gate) : first.Rises second := by
  intro topology htold
  exact ⟨topology, by rw [hgate, htold], UInt64.le_refl _⟩

theorem refl (node : Node K) : node.Rises node := of_gate rfl

theorem trans (hfirst : first.Rises second) (hsecond : second.Rises third) :
    first.Rises third := by
  intro topology htold
  obtain ⟨between, hbetween, hle⟩ := hfirst topology htold
  obtain ⟨later, hlater, hle'⟩ := hsecond between hbetween
  exact ⟨later, hlater, UInt64.le_trans hle hle'⟩

end Rises

/-- A locality is accepted or refused; either way the gate is not told of an older topology. -/
theorem rises_install (scheduler : Scheduler K) (topology : TopologyId) (locality : Locality K)
    {told : TopologyId} (htold : scheduler.gate.topology = some told) :
    ∃ later, (scheduler.install topology locality).2.gate.topology = some later ∧
      told ≤ later := by
  rcases scheduler.install_cases topology locality with ⟨newer, -, -, h⟩ | ⟨hle, h⟩
  · rw [h]
    exact ⟨told, htold, UInt64.le_refl _⟩
  · rw [h]
    exact ⟨topology, rfl, hle told htold⟩

theorem InstallStep.rises {before after : Node K} {action : NodeAction K}
    (hstep : before.InstallStep action after) : before.Rises after := by
  cases hstep with
  | narrowed installation kept hinstalling hcancelling =>
      intro told htold
      exact rises_install _ _ _ htold
  | swept installation kept hinstalling hcancelling =>
      intro told htold
      rcases before.scheduler.cancelUnowned_cases kept.topology (.segments kept) with
        ⟨newer, -, -, h⟩ | ⟨hle, h⟩
      · rw [h]
        exact ⟨told, htold, UInt64.le_refl _⟩
      · rw [h]
        exact ⟨kept.topology, rfl, hle told htold⟩
  | takenUp installation id unheard old new gained handle hhears =>
      intro told htold
      exact rises_install _ _ _ htold
  | _ => exact .of_gate rfl

/-- What is being installed stays the same until it is over. -/
theorem InstallStep.transition {before after : Node K} {action : NodeAction K}
    (hstep : before.InstallStep action after) {later : Installation K}
    (hlater : after.installation = some later) :
    action = .beginInstall later.transition.new ∨
      ∃ installation, before.installation = some installation ∧
        installation.transition = later.transition := by
  cases hstep with
  | begun next hidle hnewer =>
      obtain rfl := Option.some.inj hlater
      exact Or.inl rfl
  | narrowed installation kept hinstalling hcancelling => exact Or.inr ⟨later, hlater, rfl⟩
  | swept installation kept hinstalling hcancelling =>
      obtain rfl := Option.some.inj hlater
      exact Or.inr ⟨installation, hinstalling, rfl⟩
  | observed installation id unheard hinstalling hresting hnext hobserver =>
      obtain rfl := Option.some.inj hlater
      exact Or.inr ⟨installation, hinstalling, rfl⟩
  | unaffected installation id unheard hhears =>
      obtain rfl := Option.some.inj hlater
      exact Or.inr ⟨installation, hhears.installing, rfl⟩
  | lossBegun installation id unheard kept lost hhears =>
      obtain rfl := Option.some.inj hlater
      exact Or.inr ⟨installation, hhears.installing, rfl⟩
  | takenUp installation id unheard old new gained handle hhears =>
      obtain rfl := Option.some.inj hlater
      exact Or.inr ⟨installation, hhears.installing, rfl⟩
  | applied installation hinstalling hresting hheard hphase =>
      obtain rfl := Option.some.inj hlater
      exact Or.inr ⟨installation, hinstalling, rfl⟩
  | ended installation hinstalling hdone => cases hlater

/-- Only a snapshot that was being installed takes effect. -/
theorem InstallStep.current {before after : Node K} {action : NodeAction K}
    (hstep : before.InstallStep action after) :
    after.notifier.current = before.notifier.current ∨
      ∃ installation, before.installation = some installation ∧
        after.notifier.current = installation.transition.new := by
  cases hstep with
  | applied installation hinstalling hresting hheard hphase =>
      exact Or.inr ⟨installation, hinstalling, rfl⟩
  | _ => exact Or.inl rfl

/-- Only snapshots that passed their checks take effect. -/
theorem InstallStep.sound {before after : Node K} {action : NodeAction K}
    (hstep : before.InstallStep action after) (hsound : before.Sound)
    (hchecked : ∀ next, action = .beginInstall next → next.Checked) : after.Sound := by
  constructor
  · rcases hstep.current with hsame | ⟨installation, hinstalling, hnew⟩
    · rw [hsame]
      exact hsound.current
    · rw [hnew]
      exact hsound.next installation hinstalling
  · intro later hlater
    rcases hstep.transition hlater with hbegun | ⟨installation, hinstalling, hsame⟩
    · exact hchecked _ hbegun
    · rw [← hsame]
      exact hsound.next installation hinstalling

/-- A cancellation pass and a gain set gate and level together. -/
theorem InstallStep.metered {before after : Node K} {action : NodeAction K}
    (hstep : before.InstallStep action after) (haligned : before.Aligned)
    (hmetered : before.Metered) : after.Metered := by
  obtain ⟨listener, hlistening⟩ := haligned.listening
  -- Outside a cancellation pass gate and level agree already.
  have hagree : ∀ installation, before.installation = some installation →
      installation.cancelling = none →
      ∃ locality, before.scheduler.gate.locality = .segments locality ∧
        before.listener.metrics.ownedSegments = Int64.ofNat locality.segments.size := by
    intro installation hinstalling hresting
    apply hmetered.resolve_right
    rintro ⟨other, kept, hother, hcancelling⟩
    obtain rfl := Option.some.inj (hother.symm.trans hinstalling)
    cases hresting.symm.trans hcancelling
  cases hstep with
  | begun next hidle hnewer =>
      left
      apply hmetered.resolve_right
      rintro ⟨other, kept, hother, -⟩
      cases hidle.symm.trans hother
  | narrowed installation kept hinstalling hcancelling =>
      exact Or.inr ⟨installation, kept, hinstalling, hcancelling⟩
  | swept installation kept hinstalling hcancelling =>
      have hnarrowing : before.stage =
          .narrowing installation.transition.old installation.transition.new :=
        (stage_of_installing hlistening hinstalling).trans
          (Installation.stage_narrowing hcancelling)
      have hkept := ((haligned.installing installation hinstalling).cancelling kept hcancelling).2.1
      have hfrontier : before.stage.frontier = kept.topology := by
        rw [hnarrowing, hkept]
        rfl
      left
      rw [Scheduler.cancelUnowned, haligned.install_eq hfrontier]
      exact ⟨kept, rfl, rfl⟩
  | observed installation id unheard hinstalling hresting hnext hobserver =>
      exact Or.inl (hagree installation hinstalling hresting)
  | unaffected installation id unheard hhears =>
      exact Or.inl (hagree installation hhears.installing hhears.resting)
  | lossBegun installation id unheard kept lost hhears =>
      exact Or.inr ⟨_, kept, rfl, rfl⟩
  | takenUp installation id unheard old new gained handle hhears =>
      have hbelongs := haligned.installing installation hhears.installing
      obtain ⟨hphase, -, hnew, -⟩ := hhears.of_gained hbelongs
      have hfrontier : before.stage.frontier = new.topology := by
        rw [hhears.stage_of_post hlistening hbelongs hphase, hnew]
        rfl
      left
      rw [haligned.install_eq hfrontier]
      exact ⟨new, rfl, rfl⟩
  | applied installation hinstalling hresting hheard hphase =>
      exact Or.inl (hagree installation hinstalling hresting)
  | ended installation hinstalling hdone =>
      obtain ⟨-, -, hresting⟩ := Installation.isDone_eq_true.mp hdone
      exact Or.inl (hagree installation hinstalling hresting)

theorem Metered.quiet {before after : Node K} (hmetered : before.Metered)
    (hquiet : before.Quiet after)
    (hmetrics : after.listener.metrics = before.listener.metrics) : after.Metered := by
  unfold Metered
  rw [hquiet.scheduler.gate, hmetrics, hquiet.installation]
  exact hmetered

theorem Sound.quiet {before after : Node K} (hsound : before.Sound)
    (hquiet : before.Quiet after) : after.Sound := by
  constructor
  · rw [hquiet.notifier]
    exact hsound.current
  · rw [hquiet.installation]
    exact hsound.next

variable [DecidableEq K]

/-- The node after an event. -/
def happen (node : Node K) : NodeEvent K → Node K
  | .act action => node.act action
  | .shutdown => { node with scheduler := node.scheduler.shutdown.2 }

/-- The node after a sequence of events. -/
def after (node : Node K) (history : List (NodeEvent K)) : Node K := history.foldl happen node

theorem after_append (node : Node K) (before later : List (NodeEvent K)) :
    node.after (before ++ later) = (node.after before).after later :=
  List.foldl_append

/-- A run is a history. -/
theorem run_eq_after (node : Node K) (actions : List (NodeAction K)) :
    node.run actions = node.after (actions.map .act) := by
  induction actions generalizing node with
  | nil => rfl
  | cons action rest ih => exact ih _

theorem metrics_stepWork (node : Node K) (pass : Pass (SchedulingPass K)) :
    (node.stepWork pass).listener.metrics = node.listener.metrics := by
  cases hwork : pass.work with
  | waiting old new =>
      simp only [stepWork, hwork]
      split <;> rfl
  | asking gained =>
      simp only [stepWork, hwork]
      split <;> rfl
  | _ =>
      simp only [stepWork, hwork]
      rfl

/-- A step that does not advance an installation leaves the metrics of the listener alone. -/
theorem act_quiet_or_installStep {node : Node K} (hregistered : node.registration.isSome = true)
    (action : NodeAction K) :
    (node.Quiet (node.act action) ∧
      (node.act action).listener.metrics = node.listener.metrics) ∨
      node.InstallStep action (node.act action) := by
  rcases act_cases hregistered action with hquiet | hstep
  · cases action with
    | beginInstall next =>
        rcases act_beginInstall node next with hsame | hstep
        · exact Or.inl ⟨hquiet, by rw [hsame]⟩
        · exact Or.inr hstep
    | narrowGate =>
        rcases act_narrowGate node with hsame | hstep
        · exact Or.inl ⟨hquiet, by rw [hsame]⟩
        · exact Or.inr hstep
    | advanceInstall =>
        rcases act_advanceInstall node with hsame | hstep
        · exact Or.inl ⟨hquiet, by rw [hsame]⟩
        · exact Or.inr hstep
    | register => exact Or.inl ⟨hquiet, by rw [act_register hregistered]⟩
    | passStep id =>
        refine Or.inl ⟨hquiet, ?_⟩
        simp only [act]
        split
        · exact node.metrics_stepWork _
        · rfl
    | _ => exact Or.inl ⟨hquiet, rfl⟩
  · exact Or.inr hstep

/-- What holds of a registered node whatever it goes through. -/
structure Tracks (node : Node K) : Prop where
  aligned : node.Aligned
  metered : node.Metered
  sound : node.Sound

theorem quiet_shutdown (node : Node K) : node.Quiet (node.happen .shutdown) := by
  have hgated := Scheduler.gated_disarm { node.scheduler with closed := true } fun _ => true
  exact .withScheduler ⟨hgated.gate, hgated.now, hgated.armed⟩

theorem Tracks.happen {node : Node K} (htracks : node.Tracks) (event : NodeEvent K)
    (hchecked : ∀ next, event = .act (.beginInstall next) → next.Checked) :
    (node.happen event).Tracks ∧ node.Rises (node.happen event) := by
  obtain ⟨haligned, hmetered, hsound⟩ := htracks
  cases event with
  | shutdown =>
      have hquiet := node.quiet_shutdown
      exact ⟨⟨haligned.quiet hquiet, hmetered.quiet hquiet rfl, hsound.quiet hquiet⟩,
        .of_gate hquiet.scheduler.gate⟩
  | act action =>
      rcases act_quiet_or_installStep haligned.registered action with ⟨hquiet, hmetrics⟩ | hstep
      · exact ⟨⟨haligned.quiet hquiet, hmetered.quiet hquiet hmetrics, hsound.quiet hquiet⟩,
          .of_gate hquiet.scheduler.gate⟩
      · have hbegins : ∀ next, action = .beginInstall next → next.Checked :=
          fun next hbegun => hchecked next (congrArg _ hbegun)
        exact ⟨⟨haligned.installStep hstep, hstep.metered haligned hmetered,
          hstep.sound hsound hbegins⟩, hstep.rises⟩

theorem Tracks.after {node : Node K} (htracks : node.Tracks) (history : List (NodeEvent K))
    (hchecked : ∀ next, .act (.beginInstall next) ∈ history → next.Checked) :
    (node.after history).Tracks ∧ node.Rises (node.after history) := by
  induction history generalizing node with
  | nil => exact ⟨htracks, .refl node⟩
  | cons event rest ih =>
      obtain ⟨hnext, hrises⟩ := htracks.happen event fun next hbegun =>
        hchecked next (hbegun ▸ List.mem_cons_self)
      obtain ⟨hlater, hrises'⟩ := ih hnext fun next hmem =>
        hchecked next (List.mem_cons_of_mem _ hmem)
      exact ⟨hlater, hrises.trans hrises'⟩

theorem identity_after {node : Node K} (htracks : node.Tracks) (history : List (NodeEvent K))
    (hchecked : ∀ next, .act (.beginInstall next) ∈ history → next.Checked) :
    (node.after history).localNode = node.localNode ∧
      (node.after history).listener.partitioner = node.listener.partitioner := by
  induction history generalizing node with
  | nil => exact ⟨rfl, rfl⟩
  | cons event rest ih =>
      have hnext := (htracks.happen event fun next hbegun =>
        hchecked next (hbegun ▸ List.mem_cons_self)).1
      obtain ⟨hlocal', hpartitioner'⟩ := ih hnext fun next hmem =>
        hchecked next (List.mem_cons_of_mem _ hmem)
      have hsame : (node.happen event).localNode = node.localNode ∧
          (node.happen event).listener.partitioner = node.listener.partitioner := by
        cases event with
        | shutdown => exact ⟨rfl, rfl⟩
        | act action => exact act_identity htracks.aligned.registered action
      exact ⟨hlocal'.trans hsame.1, hpartitioner'.trans hsame.2⟩

omit [DecidableEq K] in
theorem tracks_register {localNode : NodeId} {initial : Snapshot} {partitioner : Partitioner K}
    {config : Config} {now : Instant} {fresh : Node K}
    (hnew : Node.new localNode initial partitioner config now = .ok fresh)
    (hinitial : initial.Checked) : fresh.register.Tracks := by
  have haligned := (aligned_register hnew).1
  obtain rfl := new_eq_ok hnew
  exact ⟨haligned, Or.inl ⟨_, rfl, rfl⟩, hinitial, fun _ hinstalling => nomatch hinstalling⟩

end Node

/-- Whether the scheduler arms an entry is decided by its gate. -/
theorem Scheduler.schedule_eq_true {K : Type} [DecidableEq K] {scheduler : Scheduler K} {id : K}
    {deadline : Instant} :
    (scheduler.schedule id deadline).1 = true ↔
      scheduler.closed = false ∧ scheduler.contains id = false ∧
        scheduler.gate.locality.owns id = true := by
  rcases scheduler.schedule_cases id deadline with ⟨hopen, howns, hfree, h⟩ | ⟨hwhy, metrics, h⟩
  · simp [h, hopen, howns, hfree]
  · rw [h]
    constructor
    · intro hrefused
      exact absurd hrefused Bool.false_ne_true
    · rintro ⟨hopen, hfree, howns⟩
      rcases hwhy with hclosed | hforeign | htaken
      · exact absurd (hclosed.symm.trans hopen) Bool.noConfusion
      · exact absurd (howns.symm.trans hforeign) Bool.noConfusion
      · exact absurd (htaken.symm.trans hfree) Bool.noConfusion

namespace Node

variable {K : Type} [DecidableEq K]

/-- The gate of a node stands at the snapshot in effect: its segments are those of the local node,
the level of owned segments is their number, it was told of no newer topology, and it arms exactly
what is free and primary for the local node as long as the scheduler is open. -/
structure GatedBySnapshot (node : Node K) (partitioner : Partitioner K) (localNode : NodeId) :
    Prop where
  gate : ∃ topology locality, node.scheduler.gate = ⟨some topology, .segments locality⟩ ∧
    locality.segments = node.notifier.current.primarySegments localNode ∧
    topology ≤ node.notifier.topology
  level : node.listener.metrics.ownedSegments =
    Int64.ofNat (node.notifier.current.primarySegments localNode).size
  schedule : ∀ id deadline, (node.scheduler.schedule id deadline).1 = true ↔
    node.scheduler.closed = false ∧ node.scheduler.contains id = false ∧
      node.notifier.current.primaryOwner (partitioner.segmentOf id) = some localNode

/-- Whatever a registered node goes through, whenever nothing is being installed its gate stands at
the snapshot in effect; and the topology that the gate was told of never falls. -/
theorem after_gatedBySnapshot {localNode : NodeId} {initial : Snapshot}
    {partitioner : Partitioner K} {config : Config} {now : Instant} {fresh : Node K}
    (hnew : Node.new localNode initial partitioner config now = .ok fresh)
    (hinitial : initial.Checked) (before later : List (NodeEvent K))
    (hchecked : ∀ next, .act (.beginInstall next) ∈ before ++ later → next.Checked) :
    (fresh.register.after before).Rises (fresh.register.after (before ++ later)) ∧
      ((fresh.register.after (before ++ later)).installation = none →
        (fresh.register.after (before ++ later)).GatedBySnapshot partitioner localNode) := by
  have hstart := tracks_register hnew hinitial
  have hthen := (hstart.after before fun next hmem =>
    hchecked next (List.mem_append_left _ hmem)).1
  have hrises := (hthen.after later fun next hmem =>
    hchecked next (List.mem_append_right _ hmem)).2
  have hnow := (hstart.after (before ++ later) hchecked).1
  obtain ⟨hlocal', hpartitioner'⟩ := identity_after hstart (before ++ later) hchecked
  obtain ⟨-, hlocal, hpartitioner⟩ := aligned_register hnew
  rw [← after_append] at hrises
  refine ⟨hrises, fun hidle => ?_⟩
  obtain ⟨locality, hgate, hplaced, hsegments⟩ := hnow.aligned.gate
  obtain ⟨topology, htold, hle⟩ := hnow.aligned.topology
  rw [stage_of_idle hidle] at hsegments hle
  have howned : locality.segments =
      (fresh.register.after (before ++ later)).notifier.current.primarySegments localNode := by
    rw [← hlocal, ← hlocal']
    exact hsegments
  obtain ⟨measured, hmeasured, hlevel⟩ : ∃ measured,
      (fresh.register.after (before ++ later)).scheduler.gate.locality = .segments measured ∧
      (fresh.register.after (before ++ later)).listener.metrics.ownedSegments =
        Int64.ofNat measured.segments.size := by
    apply hnow.metered.resolve_right
    rintro ⟨installation, kept, hinstalling, -⟩
    cases hidle.symm.trans hinstalling
  obtain rfl := Locality.segments.inj (hgate.symm.trans hmeasured)
  refine ⟨⟨topology, locality, ?_, howned, hle⟩, howned ▸ hlevel, fun id deadline => ?_⟩
  · rw [← htold, ← hgate]
  · have howns : (Locality.segments locality).owns id = true ↔
        locality.partitioner.segmentOf id ∈ locality.segments := SegmentSet.contains_eq_true
    rw [Scheduler.schedule_eq_true, hgate, howns, ← hnow.sound.current.mem_primarySegments,
      ← howned, ← hpartitioner, ← hpartitioner', ← hplaced]

/-- A gain, then a gain together with a loss while an entry is armed and a pass is held up, a
snapshot that comes too late, and the end of the scheduler. -/
def shiftingHistory (second third : Snapshot) : List (NodeEvent UInt64) :=
  ([.store 0 50, .schedule 0 50, .store 1 60, .setPaused true,
    .beginInstall second, .advanceInstall, .advanceInstall, .advanceInstall, .advanceInstall,
    .takeNext, .passStep 0,
    .beginInstall third, .advanceInstall, .narrowGate, .advance 10, .advanceInstall,
    .advanceInstall, .advanceInstall, .advanceInstall, .beginInstall second].map .act)

/-- After such a history nothing is being installed, and the gate stands at the third snapshot, also
when the scheduler is shut down then. -/
theorem after_gatedBySnapshot_shiftingHistory :
    ∃ second third fresh, Node.new 0 (.ofParts 1 [0, 1] [[0], [1], [1], [1]]) (.modulo 4)
        { segmentCount := 4 } 0 = .ok fresh ∧
      (fresh.register.after (shiftingHistory second third)).notifier.current = third ∧
      third.topology = 3 ∧
      (fresh.register.after (shiftingHistory second third)).Rises
        (fresh.register.after (shiftingHistory second third ++ [.shutdown])) ∧
      (fresh.register.after (shiftingHistory second third ++ [.shutdown])).GatedBySnapshot
        (.modulo 4) 0 := by
  refine ⟨.ofParts 2 [0, 1] [[0], [0], [1], [1]], .ofParts 3 [0, 1] [[1], [0], [0], [1]], _, rfl,
    rfl, rfl, ?_⟩
  have hnew : Node.new 0 (.ofParts 1 [0, 1] [[0], [1], [1], [1]]) (.modulo 4)
      { segmentCount := 4 } 0 = .ok _ := rfl
  obtain ⟨hrises, hgated⟩ := after_gatedBySnapshot hnew ⟨1, [0, 1], [[0], [1], [1], [1]], rfl⟩
    (shiftingHistory (.ofParts 2 [0, 1] [[0], [0], [1], [1]])
      (.ofParts 3 [0, 1] [[1], [0], [0], [1]])) [.shutdown] (by
    intro next hmem
    have hnext : next = .ofParts 2 [0, 1] [[0], [0], [1], [1]] ∨
        next = .ofParts 3 [0, 1] [[1], [0], [0], [1]] := by
      simpa [shiftingHistory, or_comm] using hmem
    rcases hnext with rfl | rfl
    · exact ⟨2, [0, 1], [[0], [0], [1], [1]], rfl⟩
    · exact ⟨3, [0, 1], [[1], [0], [0], [1]], rfl⟩)
  exact ⟨hrises, hgated rfl⟩

end Node

end Custody
