/-
# What one step of a node does

Every step of a registered node is of one of two kinds.  A quiet step leaves the topology and its
installation alone and changes the scheduler, if at all, behind the gate that stands; applications,
the clock, the store, the worker and the work of passes take such steps.  Every other step advances
an installation, and there are nine ways in which one advances.
-/

import Custody.Node.Action
import Custody.Proofs.Scheduler.Operations

namespace Custody

namespace Node

variable {K : Type}

/-- A step that leaves the topology and its installation alone and arms nothing that the gate does
not own. -/
structure Quiet (before after : Node K) : Prop where
  notifier : after.notifier = before.notifier
  partitioner : after.listener.partitioner = before.listener.partitioner
  registration : after.registration = before.registration
  observers : after.observers = before.observers
  installation : after.installation = before.installation
  scheduler : before.scheduler.Gated after.scheduler

namespace Quiet

/-- Nothing happens. -/
theorem refl (node : Node K) : node.Quiet node :=
  ⟨rfl, rfl, rfl, rfl, rfl, .refl _⟩

/-- Only the executor changes. -/
theorem withExecutor (node : Node K) (executor : Executor (SchedulingPass K)) :
    node.Quiet (node.withExecutor executor) :=
  ⟨rfl, rfl, rfl, rfl, rfl, .refl _⟩

/-- Only the store changes. -/
theorem withStore (node : Node K) (store : Store K) : node.Quiet { node with store := store } :=
  ⟨rfl, rfl, rfl, rfl, rfl, .refl _⟩

/-- Only the scheduler changes, behind the gate that stands. -/
theorem withScheduler {node : Node K} {scheduler : Scheduler K}
    (hgated : node.scheduler.Gated scheduler) : node.Quiet { node with scheduler := scheduler } :=
  ⟨rfl, rfl, rfl, rfl, rfl, hgated⟩

/-- Quiet steps compose. -/
theorem trans {first second third : Node K} (hfirst : first.Quiet second)
    (hsecond : second.Quiet third) : first.Quiet third where
  notifier := hsecond.notifier.trans hfirst.notifier
  partitioner := hsecond.partitioner.trans hfirst.partitioner
  registration := hsecond.registration.trans hfirst.registration
  observers := hsecond.observers.trans hfirst.observers
  installation := hsecond.installation.trans hfirst.installation
  scheduler := hfirst.scheduler.trans hsecond.scheduler

end Quiet

/-- The listener of the node hears an announcement next, and this is what it asks for. -/
structure Hears (node : Node K) (installation : Installation K) (id : ListenerId)
    (unheard : List ListenerId) (change : OwnershipChange K) : Prop where
  installing : node.installation = some installation
  resting : installation.cancelling = none
  next : installation.unheard = id :: unheard
  listener : id ∉ node.observers
  change : OwnershipChange.ofEvent node.listener.partitioner
    (installation.transition.event installation.phase) = change

/-- The ways in which an installation advances, each with the step that takes it. -/
inductive InstallStep (node : Node K) : NodeAction K → Node K → Prop where
  /-- A transition to a newer snapshot begins. -/
  | begun (next : Snapshot) (hidle : node.installation = none)
      (hnewer : node.notifier.topology < next.topology) :
      InstallStep node (.beginInstall next)
        { node with
          installation := some
            ⟨⟨node.notifier.current, next, node.localNode, node.notifier.listeners⟩, .pre,
              node.notifier.listeners, none, []⟩ }
  /-- The cancellation pass lets its locality decide. -/
  | narrowed (installation : Installation K) (kept : SegmentLocality K)
      (hinstalling : node.installation = some installation)
      (hcancelling : installation.cancelling = some kept) :
      InstallStep node .narrowGate
        { node with
          scheduler := (node.scheduler.install kept.topology (.segments kept)).2 }
  /-- The cancellation pass takes back what its locality does not own, and ends. -/
  | swept (installation : Installation K) (kept : SegmentLocality K)
      (hinstalling : node.installation = some installation)
      (hcancelling : installation.cancelling = some kept) :
      InstallStep node .advanceInstall
        { node with
          listener := node.listener.endLoss kept .zero
          scheduler := (node.scheduler.cancelUnowned kept.topology (.segments kept)).2
          installation := some { installation with cancelling := none } }
  /-- Another listener looks on. -/
  | observed (installation : Installation K) (id : ListenerId) (unheard : List ListenerId)
      (hinstalling : node.installation = some installation)
      (hresting : installation.cancelling = none)
      (hnext : installation.unheard = id :: unheard) (hobserver : id ∈ node.observers) :
      InstallStep node .advanceInstall
        { node.observe installation.phase with
          installation := some { installation with
            unheard := unheard, handles := installation.handles ++ [Handle.ready .noop] } }
  /-- The listener hears an announcement that asks for nothing. -/
  | unaffected (installation : Installation K) (id : ListenerId) (unheard : List ListenerId)
      (hhears : node.Hears installation id unheard .unchanged) :
      InstallStep node .advanceInstall
        { node with
          installation := some { installation with
            unheard := unheard, handles := installation.handles ++ [Handle.ready .noop] } }
  /-- The listener hears of a loss. -/
  | lossBegun (installation : Installation K) (id : ListenerId) (unheard : List ListenerId)
      (kept : SegmentLocality K) (lost : SegmentSet)
      (hhears : node.Hears installation id unheard (.losing kept lost)) :
      InstallStep node .advanceInstall
        { node with
          listener := node.listener.beginLoss
          installation := some { installation with
            unheard := unheard, cancelling := some kept } }
  /-- The listener hears of a gain and takes it up. -/
  | takenUp (installation : Installation K) (id : ListenerId) (unheard : List ListenerId)
      (old new : SegmentLocality K) (gained : SegmentSet) (handle : Handle)
      (hhears : node.Hears installation id unheard (.gained old new gained)) :
      InstallStep node .advanceInstall
        { node with
          listener :=
            { node.listener with
              executor := (node.listener.executor.submit (.waiting old new)).2
              metrics := node.listener.metrics.setOwned new.segments.size }
          scheduler := (node.scheduler.install new.topology (.segments new)).2
          installation := some { installation with
            unheard := unheard, handles := installation.handles ++ [handle] } }
  /-- Everybody has heard the first announcement, and the new snapshot takes effect. -/
  | applied (installation : Installation K) (hinstalling : node.installation = some installation)
      (hresting : installation.cancelling = none) (hheard : installation.unheard = [])
      (hphase : installation.phase = .pre) :
      InstallStep node .advanceInstall
        { node with
          notifier := node.notifier.apply installation.transition
          installation := some { installation with
            phase := .post, unheard := installation.transition.audience, handles := [] } }
  /-- Everybody has heard the second announcement, and the installation is over. -/
  | ended (installation : Installation K) (hinstalling : node.installation = some installation)
      (hdone : installation.isDone = true) :
      InstallStep node .advanceInstall { node with installation := none }

/-- A snapshot is installed only if it is newer and nothing else is being installed. -/
theorem act_beginInstall [DecidableEq K] (node : Node K) (next : Snapshot) :
    node.act (.beginInstall next) = node ∨
      node.InstallStep (.beginInstall next) (node.act (.beginInstall next)) := by
  cases hidle : node.installation with
  | some installation => exact Or.inl (by simp [act, hidle])
  | none =>
      by_cases hstale : next.topology ≤ node.notifier.topology
      · left
        simp [act, hidle, beginInstall, Notifier.propose, hstale, Except.map]
      · right
        have hbegun := InstallStep.begun next hidle (UInt64.not_le.mp hstale)
        simpa [act, hidle, beginInstall, Notifier.propose, hstale, Except.map, localNode]
          using hbegun

/-- The next listener of an installation hears its announcement. -/
theorem hear_installStep {node : Node K} {installation : Installation K} {id : ListenerId}
    {unheard : List ListenerId} (hinstalling : node.installation = some installation)
    (hresting : installation.cancelling = none) (hnext : installation.unheard = id :: unheard) :
    node.InstallStep .advanceInstall (node.hear installation id unheard) := by
  by_cases hobserver : id ∈ node.observers
  · have hstep := InstallStep.observed installation id unheard hinstalling hresting hnext hobserver
    simpa [hear, hobserver] using hstep
  · cases hchange : OwnershipChange.ofEvent node.listener.partitioner
        (installation.transition.event installation.phase) with
    | unchanged =>
        have hstep := InstallStep.unaffected installation id unheard
          ⟨hinstalling, hresting, hnext, hobserver, hchange⟩
        simpa [hear, hobserver, hchange] using hstep
    | losing kept lost =>
        have hstep := InstallStep.lossBegun installation id unheard kept lost
          ⟨hinstalling, hresting, hnext, hobserver, hchange⟩
        simpa [hear, hobserver, hchange] using hstep
    | gained old new gained =>
        have hstep := InstallStep.takenUp installation id unheard old new gained
          (node.listener.takeUp tasks old new node.scheduler).1
          ⟨hinstalling, hresting, hnext, hobserver, hchange⟩
        simpa [hear, hobserver, hchange, Listener.takeUp, tasks] using hstep

/-- An installation that is under way advances. -/
theorem installStep_of_installing [DecidableEq K] {node : Node K} {installation : Installation K}
    (hinstalling : node.installation = some installation) :
    node.InstallStep .advanceInstall (node.act .advanceInstall) := by
  by_cases hdone : installation.isDone = true
  · have hstep := InstallStep.ended installation hinstalling hdone
    simpa [act, hinstalling, hdone, endInstall] using hstep
  · have hadvance : node.act .advanceInstall = node.advanceInstall := by
      simp [act, hinstalling, hdone]
    rw [hadvance]
    cases hcancelling : installation.cancelling with
    | some kept =>
        have hstep := InstallStep.swept installation kept hinstalling hcancelling
        simpa [advanceInstall, hinstalling, hcancelling, Listener.runLoss, tasks] using hstep
    | none =>
        cases hunheard : installation.unheard with
        | cons id unheard =>
            have hstep := hear_installStep hinstalling hcancelling hunheard
            simpa [advanceInstall, hinstalling, hcancelling, hunheard] using hstep
        | nil =>
            cases hphase : installation.phase with
            | pre =>
                have hstep :=
                  InstallStep.applied installation hinstalling hcancelling hunheard hphase
                simpa [advanceInstall, hinstalling, hcancelling, hunheard, hphase] using hstep
            | post =>
                simp [Installation.isDone, Phase.isPre, hcancelling, hunheard, hphase] at hdone

/-- A node that is installing nothing does not advance. -/
theorem act_advanceInstall [DecidableEq K] (node : Node K) :
    node.act .advanceInstall = node ∨
      node.InstallStep .advanceInstall (node.act .advanceInstall) := by
  cases hinstalling : node.installation with
  | none => exact Or.inl (by simp [act, hinstalling])
  | some installation => exact Or.inr (installStep_of_installing hinstalling)

/-- A cancellation pass that is under way may narrow the gate. -/
theorem act_narrowGate [DecidableEq K] (node : Node K) :
    node.act .narrowGate = node ∨ node.InstallStep .narrowGate (node.act .narrowGate) := by
  cases hinstalling : node.installation with
  | none => exact Or.inl (by simp [act, hinstalling])
  | some installation =>
      cases hcancelling : installation.cancelling with
      | none => exact Or.inl (by simp [act, hinstalling, hcancelling])
      | some kept =>
          have hstep := InstallStep.narrowed installation kept hinstalling hcancelling
          exact Or.inr (by simpa [act, hinstalling, hcancelling, tasks] using hstep)

/-- A registered node does not register again. -/
theorem act_register [DecidableEq K] {node : Node K}
    (hregistered : node.registration.isSome = true) : node.act .register = node := by
  simp [act, hregistered]

/-- The work of a pass changes the scheduler only through candidates that it offers. -/
theorem quiet_stepWork [DecidableEq K] (node : Node K) (pass : Pass (SchedulingPass K)) :
    node.Quiet (node.stepWork pass) := by
  cases hwork : pass.work with
  | waiting old new =>
      simp only [stepWork, hwork]
      split
      · exact (Quiet.withExecutor node _).trans (.withStore _ _)
      · exact .withExecutor node _
  | asking gained =>
      simp only [stepWork, hwork]
      split
      · exact .refl node
      · exact (Quiet.withExecutor node _).trans (.withStore _ _)
  | reading gained rest report =>
      simp only [stepWork, hwork]
      exact .withExecutor node _
  | holding gained candidate rest report =>
      simp only [stepWork, hwork]
      exact (Quiet.withExecutor node _).trans
        (.withScheduler (Scheduler.gated_place node.scheduler gained candidate report))
  | returned result =>
      simp only [stepWork, hwork]
      exact .withExecutor node _

/-- Every step but a registration is quiet or advances an installation. -/
theorem act_cases_of_ne_register [DecidableEq K] (node : Node K) {action : NodeAction K}
    (hother : action ≠ .register) :
    node.Quiet (node.act action) ∨ node.InstallStep action (node.act action) := by
  cases action with
  | store id deadline => exact Or.inl (.withStore node _)
  | unstore id => exact Or.inl (.withStore node _)
  | schedule id deadline =>
      exact Or.inl (.withScheduler (Scheduler.gated_schedule node.scheduler id deadline))
  | cancel id => exact Or.inl (.withScheduler (Scheduler.gated_cancel node.scheduler id))
  | advance elapsed =>
      exact Or.inl (.withScheduler (Scheduler.gated_advance node.scheduler elapsed))
  | beginInstall next =>
      rcases act_beginInstall node next with hsame | hstep
      · rw [hsame]
        exact Or.inl (.refl node)
      · exact Or.inr hstep
  | narrowGate =>
      rcases act_narrowGate node with hsame | hstep
      · rw [hsame]
        exact Or.inl (.refl node)
      · exact Or.inr hstep
  | advanceInstall =>
      rcases act_advanceInstall node with hsame | hstep
      · rw [hsame]
        exact Or.inl (.refl node)
      · exact Or.inr hstep
  | register => exact absurd rfl hother
  | takeNext => exact Or.inl (.withExecutor node _)
  | noticeCancellation => exact Or.inl (.withExecutor node _)
  | passStep id =>
      left
      simp only [act]
      split
      · exact quiet_stepWork node _
      · exact .refl node
  | setPaused paused => exact Or.inl (.withStore node _)
  | failNext detail => exact Or.inl (.withStore node _)

/-- Every step of a registered node is quiet or advances an installation. -/
theorem act_cases [DecidableEq K] {node : Node K} (hregistered : node.registration.isSome = true)
    (action : NodeAction K) :
    node.Quiet (node.act action) ∨ node.InstallStep action (node.act action) := by
  cases action with
  | register =>
      rw [act_register hregistered]
      exact Or.inl (.refl node)
  | _ => exact node.act_cases_of_ne_register fun hsame => nomatch hsame

/-- An advance of an installation changes neither the name of a node nor the segments of its keys. -/
theorem InstallStep.identity {before after : Node K} {action : NodeAction K}
    (hstep : before.InstallStep action after) :
    after.localNode = before.localNode ∧
      after.listener.partitioner = before.listener.partitioner := by
  cases hstep <;> exact ⟨rfl, rfl⟩

/-- An advance of an installation registers nobody. -/
theorem InstallStep.registration {before after : Node K} {action : NodeAction K}
    (hstep : before.InstallStep action after) : after.registration = before.registration := by
  cases hstep <;> rfl

/-- Whether a node is registered is changed by registering alone. -/
theorem registration_act_of_ne_register [DecidableEq K] (node : Node K) {action : NodeAction K}
    (hother : action ≠ .register) : (node.act action).registration = node.registration := by
  rcases node.act_cases_of_ne_register hother with hquiet | hstep
  · exact hquiet.registration
  · exact hstep.registration

/-- No step changes the name of a node or the segments of its keys. -/
theorem act_identity [DecidableEq K] {node : Node K}
    (hregistered : node.registration.isSome = true) (action : NodeAction K) :
    (node.act action).localNode = node.localNode ∧
      (node.act action).listener.partitioner = node.listener.partitioner := by
  rcases act_cases hregistered action with hquiet | hstep
  · exact ⟨congrArg Notifier.localNode hquiet.notifier, hquiet.partitioner⟩
  · exact hstep.identity

end Node

end Custody
