/-
# From stage to stage

A node goes through the stages of a transition in their order, and through the snapshots one
transition after the other.  Of the snapshots that bound what it has armed, the newest only gets
newer, and the oldest is left behind in one place only: when the listener hears that the new snapshot
is in effect.
-/

import Custody.Proofs.Node.Ownership

namespace Custody

namespace Stage

/-- The oldest snapshot that bounds what is armed. -/
def oldest : Stage → Snapshot
  | steady current => current
  | announced old _ | narrowing old _ | bridging old _ => old
  | widened _ new => new

/-- The newest snapshot that bounds what is armed. -/
def newest : Stage → Snapshot
  | steady current => current
  | announced old _ | narrowing old _ => old
  | bridging _ new | widened _ new => new

theorem oldest_mem_bounds (stage : Stage) : stage.oldest ∈ stage.bounds := by
  cases stage <;> exact List.mem_cons_self

theorem newest_mem_bounds (stage : Stage) : stage.newest ∈ stage.bounds := by
  cases stage with
  | bridging old new => exact List.mem_cons_of_mem _ List.mem_cons_self
  | _ => exact List.mem_cons_self

/-- Whether a stage leads from one snapshot of a sequence to the next. -/
def Follows (sequence : List Snapshot) : Stage → Prop
  | steady current => current ∈ sequence
  | announced old new | narrowing old new | bridging old new | widened old new =>
      [old, new] <:+: sequence

/-- Whether the snapshots of a stage are all of a kind. -/
def Among (allowed : Snapshot → Prop) : Stage → Prop
  | steady current => allowed current
  | announced old new | narrowing old new | bridging old new | widened old new =>
      allowed old ∧ allowed new

end Stage

namespace Node

variable {K : Type}

/-- The moves from stage to stage that a step of a node may bring about. -/
inductive Moves (node : Node K) (action : NodeAction K) : Stage → Stage → Prop where
  | stays (stage : Stage) : Moves node action stage stage
  | begins (next : Snapshot) (haction : action = .beginInstall next)
      (hidle : node.installation = none) (hnewer : node.notifier.topology < next.topology) :
      Moves node action (.steady node.notifier.current) (.announced node.notifier.current next)
  | loses (old new : Snapshot) : Moves node action (.announced old new) (.narrowing old new)
  | losesNothing (old new : Snapshot) : Moves node action (.announced old new) (.bridging old new)
  | givesUp (old new : Snapshot) : Moves node action (.narrowing old new) (.bridging old new)
  /-- The listener hears that the new snapshot is in effect. -/
  | widens (installation : Installation K) (haction : action = .advanceInstall)
      (hinstalling : node.installation = some installation) (hphase : installation.phase = .post)
      (hunheard : installation.unheard ≠ []) :
      Moves node action
        (.bridging installation.transition.old installation.transition.new)
        (.widened installation.transition.old installation.transition.new)
  | ends (old new : Snapshot) : Moves node action (.widened old new) (.steady new)

/-- A step that leaves an installation behind moves to the stage of that installation. -/
theorem Moves.of_installing {before after : Node K} {action : NodeAction K}
    {listener : ListenerId} {later : Installation K} (hlistening : after.Listening listener)
    (hinstalling : after.installation = some later)
    (hmoves : before.Moves action before.stage (later.stage listener)) :
    before.Moves action before.stage after.stage := by
  rw [stage_of_installing hlistening hinstalling]
  exact hmoves

/-- A listener that hears an announcement, and need not wait for anything, moves on by it. -/
theorem Hears.moves {node : Node K} {listener id : ListenerId} {installation : Installation K}
    {unheard : List ListenerId} {change : OwnershipChange K}
    (hhears : node.Hears installation id unheard change) (hlistening : node.Listening listener)
    (hinstalling : node.Installing installation) (handles : List Handle) :
    node.Moves .advanceInstall node.stage
      (({ installation with unheard := unheard, handles := handles } :
        Installation K).stage listener) := by
  obtain ⟨rfl, hheard⟩ := hhears.eq_listener hlistening hinstalling
  have hphases : installation.phase = .pre ∨ installation.phase = .post := by
    cases installation.phase <;> simp
  rcases hphases with hphase | hphase
  · have hafter : ({ installation with unheard := unheard, handles := handles } :
        Installation K).stage id = .bridging _ _ :=
      Installation.stage_bridging_of_pre hhears.resting hphase hheard
    rw [hhears.stage_of_pre hlistening hinstalling hphase, hafter]
    exact .losesNothing _ _
  · have hafter : ({ installation with unheard := unheard, handles := handles } :
        Installation K).stage id = .widened _ _ :=
      Installation.stage_widened hhears.resting hphase hheard
    rw [hhears.stage_of_post hlistening hinstalling hphase, hafter]
    exact .widens installation rfl hhears.installing hphase (by simp [hhears.next])

/-- Every advance of an installation is a move. -/
theorem InstallStep.moves {before after : Node K} {action : NodeAction K}
    (haligned : before.Aligned) (hstep : before.InstallStep action after) :
    before.Moves action before.stage after.stage := by
  obtain ⟨listener, hlistening⟩ := haligned.listening
  cases hstep with
  | begun next hidle hnewer =>
      refine .of_installing (hlistening.congr rfl rfl rfl) rfl ?_
      rw [stage_of_idle hidle, Installation.stage_announced rfl rfl hlistening.listed]
      exact .begins next rfl hidle hnewer
  | narrowed installation kept hinstalling hcancelling =>
      refine .of_installing (hlistening.congr rfl rfl rfl) hinstalling ?_
      rw [stage_of_installing hlistening hinstalling]
      exact .stays _
  | swept installation kept hinstalling hcancelling =>
      obtain ⟨hphase, -, hheard⟩ :=
        (haligned.installing installation hinstalling).cancelling kept hcancelling
      have hafter : ({ installation with cancelling := none } : Installation K).stage listener =
          .bridging installation.transition.old installation.transition.new :=
        Installation.stage_bridging_of_pre rfl hphase (hheard listener hlistening.registered)
      refine .of_installing (hlistening.congr rfl rfl rfl) rfl ?_
      rw [stage_of_installing hlistening hinstalling, Installation.stage_narrowing hcancelling,
        hafter]
      exact .givesUp _ _
  | observed installation id unheard hinstalling hresting hnext hobserver =>
      have hother : listener ≠ id := fun hsame => hlistening.own (hsame ▸ hobserver)
      refine .of_installing (hlistening.congr rfl rfl rfl) rfl ?_
      rw [stage_of_installing hlistening hinstalling]
      simpa [Installation.stage, hnext, hother] using Moves.stays _
  | unaffected installation id unheard hhears =>
      have hbelongs := haligned.installing installation hhears.installing
      refine .of_installing (hlistening.congr rfl rfl rfl) rfl ?_
      exact hhears.moves hlistening hbelongs _
  | lossBegun installation id unheard kept lost hhears =>
      have hbelongs := haligned.installing installation hhears.installing
      obtain ⟨hphase, -⟩ := hhears.of_losing hbelongs
      refine .of_installing (hlistening.congr rfl rfl rfl) rfl ?_
      rw [hhears.stage_of_pre hlistening hbelongs hphase, Installation.stage_narrowing rfl]
      exact .loses _ _
  | takenUp installation id unheard old new gained handle hhears =>
      have hbelongs := haligned.installing installation hhears.installing
      refine .of_installing (hlistening.congr rfl rfl rfl) rfl ?_
      exact hhears.moves hlistening hbelongs _
  | applied installation hinstalling hresting hheard hphase =>
      have hbelongs := haligned.installing installation hinstalling
      have hafter : ({ installation with
          phase := .post, unheard := installation.transition.audience, handles := [] } :
          Installation K).stage listener =
          .bridging installation.transition.old installation.transition.new :=
        Installation.stage_bridging_of_post hresting rfl (hbelongs.audience ▸ hlistening.listed)
      refine .of_installing (hlistening.congr rfl rfl rfl) rfl ?_
      rw [stage_of_installing hlistening hinstalling, hafter,
        Installation.stage_bridging_of_pre hresting hphase (by simp [hheard])]
      exact .stays _
  | ended installation hinstalling hdone =>
      obtain ⟨hphase, hheard, hresting⟩ := Installation.isDone_eq_true.mp hdone
      have hcurrent : before.notifier.current = installation.transition.new := by
        rw [(haligned.installing installation hinstalling).current, hphase]
      rw [stage_of_installing hlistening hinstalling, stage_of_idle rfl, hcurrent,
        Installation.stage_widened hresting hphase (by simp [hheard])]
      exact .ends _ _

/-- Every step of an aligned node is a move. -/
theorem Aligned.moves [DecidableEq K] {node : Node K} (haligned : node.Aligned)
    (action : NodeAction K) : node.Moves action node.stage (node.act action).stage := by
  rcases act_cases haligned.registered action with hquiet | hstep
  · rw [hquiet.stage]
    exact .stays _
  · exact hstep.moves haligned

/-- A move brings in no snapshot but the one whose installation begins. -/
theorem Moves.among {node : Node K} {action : NodeAction K} {before after : Stage}
    {allowed : Snapshot → Prop} (hmoves : node.Moves action before after)
    (hbegun : ∀ next, action = .beginInstall next → allowed next) (hbefore : before.Among allowed) :
    after.Among allowed := by
  cases hmoves with
  | begins next haction => exact ⟨hbefore, hbegun next haction⟩
  | ends old new => exact hbefore.2
  | _ => exact hbefore

/-- A run goes through the snapshots that it began with or was asked to install. -/
theorem Aligned.run_among [DecidableEq K] {node : Node K} {actions : List (NodeAction K)}
    {allowed : Snapshot → Prop} (haligned : node.Aligned) (hstart : node.stage.Among allowed)
    (hbegun : ∀ next, .beginInstall next ∈ actions → allowed next) :
    (node.run actions).stage.Among allowed := by
  induction actions generalizing node with
  | nil => exact hstart
  | cons action later ih =>
      apply ih (haligned.act action)
      · apply (haligned.moves action).among _ hstart
        rintro next rfl
        exact hbegun next List.mem_cons_self
      · intro next hmem
        exact hbegun next (List.mem_cons_of_mem _ hmem)

end Node

end Custody
