/-
# What a registration misses

A listener registers while anything else happens to its node.  What it misses is decided at the moment
when it puts itself on the list, by what it has read and what is in effect once the installation under
way is over.  A listener that reads when no transition is announced ahead of taking effect, and that is
on the list before another one is announced, has missed nothing (`upcoming_eq_read`).  One that reads
before a transition takes effect, and puts itself on the list after the audience of the transition was
fixed, is told of it neither before nor after, and goes on with what it read.

Runs in which the node registers as a whole are among these (`run_flatMap_unfolded`).
-/

import Custody.Proofs.Node.Listing

namespace Custody

namespace Newcomer

variable {K : Type} {partitioner : Partitioner K} {localNode : NodeId}

/-- How far a listener has come decides where its node stands.  Of one that is on the list nothing is
said. -/
inductive Fits (partitioner : Partitioner K) (localNode : NodeId) : Newcomer K → Prop where
  | outside {node : Node K} (hunlisted : node.Unlisted partitioner localNode)
      (htold : node.scheduler.gate.topology = none) : Fits partitioner localNode ⟨node, .outside⟩
  | informed {node : Node K} {read : Snapshot} (hunlisted : node.Unlisted partitioner localNode)
      (htold : ∀ topology, node.scheduler.gate.topology = some topology →
        topology ≤ read.topology) : Fits partitioner localNode ⟨node, .informed read⟩
  | confined {node : Node K} {read : Snapshot} (hunlisted : node.Unlisted partitioner localNode)
      (hstands : node.StandsAt partitioner localNode read) :
      Fits partitioner localNode ⟨node, .confined read⟩
  | enrolled (node : Node K) : Fits partitioner localNode ⟨node, .enrolled⟩

/-- A listener that registers is outside at first. -/
theorem fits_beside {initial : Snapshot} {config : Config} {now : Instant} {fresh : Node K}
    (hnew : Node.new localNode initial partitioner config now = .ok fresh) (observers : Nat) :
    Fits partitioner localNode (beside fresh observers) := by
  obtain ⟨hunlisted, htold⟩ := Node.unlisted_new hnew observers
  exact .outside hunlisted htold

theorem Fits.read {newcomer : Newcomer K} (hfits : Fits partitioner localNode newcomer) :
    Fits partitioner localNode newcomer.read := by
  cases hfits with
  | outside hunlisted htold =>
      refine .informed hunlisted fun topology hsome => ?_
      cases htold.symm.trans hsome
  | informed hunlisted htold => exact .informed hunlisted htold
  | confined hunlisted hstands => exact .confined hunlisted hstands
  | enrolled node => exact .enrolled node

theorem Fits.narrow {newcomer : Newcomer K} (hfits : Fits partitioner localNode newcomer) :
    Fits partitioner localNode newcomer.narrow := by
  cases hfits with
  | outside hunlisted htold => exact .outside hunlisted htold
  | @informed node read hunlisted htold =>
      refine .informed (hunlisted.confined node.listener.metrics _) fun topology hsome => ?_
      have haccepted := Scheduler.install_of_le htold (.segments (node.localityUnder read))
      have hgate : (Node.tasks.install (node.localityUnder read) node.scheduler).gate.topology =
          some read.topology := by
        simp only [Node.tasks]
        exact congrArg (fun answer => answer.2.gate.topology) haccepted
      cases hgate.symm.trans hsome
      exact UInt64.le_refl _
  | confined hunlisted hstands => exact .confined hunlisted hstands
  | enrolled node => exact .enrolled node

theorem Fits.confine {newcomer : Newcomer K} (hfits : Fits partitioner localNode newcomer) :
    Fits partitioner localNode newcomer.confine := by
  cases hfits with
  | outside hunlisted htold => exact .outside hunlisted htold
  | @informed node read hunlisted htold =>
      exact .confined (hunlisted.confined _ _) (hunlisted.standsAt_cancel htold _)
  | confined hunlisted hstands => exact .confined hunlisted hstands
  | enrolled node => exact .enrolled node

theorem Fits.enrol {newcomer : Newcomer K} (hfits : Fits partitioner localNode newcomer) :
    Fits partitioner localNode newcomer.enrol := by
  cases hfits with
  | outside hunlisted htold => exact .outside hunlisted htold
  | informed hunlisted htold => exact .informed hunlisted htold
  | confined hunlisted hstands => exact .enrolled _
  | enrolled node => exact .enrolled node

/-- What a listener leaves behind when it puts itself on the list. -/
theorem Fits.enrolled_of_confined {newcomer : Newcomer K} {read : Snapshot}
    (hfits : Fits partitioner localNode newcomer) (hready : newcomer.enrolment = .confined read) :
    newcomer.enrol.enrolment = .enrolled ∧ newcomer.enrol.node.Listed partitioner localNode ∧
      newcomer.enrol.node.StandsAt partitioner localNode read ∧
      newcomer.enrol.node.upcoming = newcomer.node.upcoming := by
  cases hfits with
  | confined hunlisted hstands =>
      cases hready
      exact ⟨rfl, hunlisted.enrol, ⟨hstands.gate, hstands.armed⟩, rfl⟩
  | _ => cases hready

variable [DecidableEq K]

theorem proceed_of_ne_register (newcomer : Newcomer K) {action : NodeAction K}
    (hother : action ≠ .register) :
    newcomer.proceed action = { newcomer with node := newcomer.node.act action } := by
  cases action with
  | register => exact absurd rfl hother
  | _ => rfl

/-- A registration as a step of the node is not taken, every other step is. -/
theorem proceed_cases (newcomer : Newcomer K) (action : NodeAction K) :
    newcomer.proceed action = newcomer ∨
      action ≠ .register ∧
        newcomer.proceed action = { newcomer with node := newcomer.node.act action } := by
  by_cases hregister : action = .register
  · subst hregister
    exact Or.inl rfl
  · exact Or.inr ⟨hregister, newcomer.proceed_of_ne_register hregister⟩

theorem Fits.proceed {newcomer : Newcomer K} (hfits : Fits partitioner localNode newcomer)
    (action : NodeAction K) : Fits partitioner localNode (newcomer.proceed action) := by
  rcases newcomer.proceed_cases action with hsame | ⟨hother, hact⟩
  · rwa [hsame]
  · rw [hact]
    cases hfits with
    | outside hunlisted htold =>
        obtain ⟨hunlisted', hgated⟩ := hunlisted.act hother
        exact .outside hunlisted' (hgated.gate ▸ htold)
    | informed hunlisted htold =>
        obtain ⟨hunlisted', hgated⟩ := hunlisted.act hother
        exact .informed hunlisted' (hgated.gate ▸ htold)
    | confined hunlisted hstands =>
        obtain ⟨hunlisted', hgated⟩ := hunlisted.act hother
        exact .confined hunlisted' (hstands.gated hgated)
    | enrolled node => exact .enrolled _

theorem Fits.step {newcomer : Newcomer K} (hfits : Fits partitioner localNode newcomer)
    (action : NewcomerAction K) : Fits partitioner localNode (newcomer.step action) := by
  cases action with
  | meanwhile action => exact hfits.proceed action
  | read => exact hfits.read
  | narrow => exact hfits.narrow
  | confine => exact hfits.confine
  | enrol => exact hfits.enrol

theorem Fits.run {newcomer : Newcomer K} (hfits : Fits partitioner localNode newcomer)
    (history : List (NewcomerAction K)) : Fits partitioner localNode (newcomer.run history) := by
  induction history generalizing newcomer with
  | nil => exact hfits
  | cons action later ih => exact ih (hfits.step action)

/-- What a listener read is what is in effect in the end. -/
inductive Timely (partitioner : Partitioner K) (localNode : NodeId) (read : Snapshot) :
    Newcomer K → Prop where
  | informed {node : Node K} (hunlisted : node.Unlisted partitioner localNode)
      (hupcoming : node.upcoming = read) : Timely partitioner localNode read ⟨node, .informed read⟩
  | confined {node : Node K} (hunlisted : node.Unlisted partitioner localNode)
      (hupcoming : node.upcoming = read) : Timely partitioner localNode read ⟨node, .confined read⟩
  | enrolled (node : Node K) : Timely partitioner localNode read ⟨node, .enrolled⟩

omit [DecidableEq K] in
/-- A listener that reads when nothing is announced that has yet to take effect is in time. -/
theorem Fits.timely_read {newcomer : Newcomer K} (hfits : Fits partitioner localNode newcomer)
    (houtside : newcomer.enrolment = .outside)
    (heffective : newcomer.node.upcoming = newcomer.node.notifier.current) :
    Timely partitioner localNode newcomer.node.notifier.current newcomer.read := by
  cases hfits with
  | outside hunlisted htold => exact .informed hunlisted heffective
  | _ => cases houtside

/-- A listener stays in time while the node does anything but begin an installation. -/
theorem Timely.proceed {newcomer : Newcomer K} {read : Snapshot}
    (htimely : Timely partitioner localNode read newcomer) {action : NodeAction K}
    (hnone : ∀ next, action ≠ .beginInstall next) :
    Timely partitioner localNode read (newcomer.proceed action) := by
  rcases newcomer.proceed_cases action with hsame | ⟨hother, hact⟩
  · rwa [hsame]
  · rw [hact]
    cases htimely with
    | informed hunlisted hupcoming =>
        exact .informed (hunlisted.act hother).1
          ((hunlisted.upcoming_act hother hnone).trans hupcoming)
    | confined hunlisted hupcoming =>
        exact .confined (hunlisted.act hother).1
          ((hunlisted.upcoming_act hother hnone).trans hupcoming)
    | enrolled node => exact .enrolled _

/-- A listener stays in time as long as no installation begins. -/
theorem Timely.step {newcomer : Newcomer K} {read : Snapshot}
    (htimely : Timely partitioner localNode read newcomer) {action : NewcomerAction K}
    (hnone : ∀ next, action ≠ .meanwhile (.beginInstall next)) :
    Timely partitioner localNode read (newcomer.step action) := by
  cases action with
  | meanwhile action =>
      exact htimely.proceed fun next hsame => hnone next (congrArg _ hsame)
  | read =>
      cases htimely with
      | informed hunlisted hupcoming => exact .informed hunlisted hupcoming
      | confined hunlisted hupcoming => exact .confined hunlisted hupcoming
      | enrolled node => exact .enrolled node
  | narrow =>
      cases htimely with
      | @informed node hunlisted hupcoming =>
          exact .informed (hunlisted.confined node.listener.metrics _) hupcoming
      | confined hunlisted hupcoming => exact .confined hunlisted hupcoming
      | enrolled node => exact .enrolled node
  | confine =>
      cases htimely with
      | informed hunlisted hupcoming => exact .confined (hunlisted.confined _ _) hupcoming
      | confined hunlisted hupcoming => exact .confined hunlisted hupcoming
      | enrolled node => exact .enrolled node
  | enrol =>
      cases htimely with
      | informed hunlisted hupcoming => exact .informed hunlisted hupcoming
      | confined hunlisted hupcoming => exact .enrolled _
      | enrolled node => exact .enrolled node

theorem Timely.run {newcomer : Newcomer K} {read : Snapshot}
    (htimely : Timely partitioner localNode read newcomer) {history : List (NewcomerAction K)}
    (hnone : ∀ next, .meanwhile (.beginInstall next) ∉ history) :
    Timely partitioner localNode read (newcomer.run history) := by
  induction history generalizing newcomer with
  | nil => exact htimely
  | cons action later ih =>
      refine ih (htimely.step ?_) fun next hmem => hnone next (List.mem_cons_of_mem _ hmem)
      exact fun next hsame => hnone next (hsame ▸ List.mem_cons_self)

/-- A listener that reads when nothing is announced that has yet to take effect, and that is ready to
put itself on the list before another installation begins, has read what is in effect in the end. -/
theorem upcoming_eq_read {initial : Snapshot} {config : Config} {now : Instant} {fresh : Node K}
    (hnew : Node.new localNode initial partitioner config now = .ok fresh) (observers : Nat)
    (before between : List (NewcomerAction K)) {reading waiting : Newcomer K} {read : Snapshot}
    (hreading : (beside fresh observers).run before = reading)
    (houtside : reading.enrolment = .outside)
    (heffective : reading.node.upcoming = reading.node.notifier.current)
    (hwaiting : reading.run (.read :: between) = waiting)
    (hnone : ∀ next, .meanwhile (.beginInstall next) ∉ between)
    (hready : waiting.enrolment = .confined read) : waiting.node.upcoming = read := by
  have hfits := (fits_beside hnew observers).run before
  rw [hreading] at hfits
  have htimely := (hfits.timely_read houtside heffective).run hnone
  rw [show reading.read.run between = waiting from hwaiting] at htimely
  cases htimely with
  | confined hunlisted hupcoming =>
      cases hready
      exact hupcoming
  | _ => cases hready

/-- A listener that is on the list has no more steps of its own to take. -/
theorem step_of_enrolled {newcomer : Newcomer K} (henrolled : newcomer.enrolment = .enrolled)
    (action : NewcomerAction K) :
    newcomer.step action = newcomer ∨
      ∃ taken, action = .meanwhile taken ∧ taken ≠ .register ∧
        newcomer.step action = { newcomer with node := newcomer.node.act taken } := by
  cases action with
  | meanwhile taken =>
      rcases newcomer.proceed_cases taken with hsame | ⟨hother, hact⟩
      · exact Or.inl hsame
      · exact Or.inr ⟨taken, rfl, hother, hact⟩
  | read => exact Or.inl (by simp [step, read, henrolled])
  | narrow => exact Or.inl (by simp [step, narrow, henrolled])
  | confine => exact Or.inl (by simp [step, confine, henrolled])
  | enrol => exact Or.inl (by simp [step, enrol, henrolled])

/-- What every step of a node but a registration keeps is kept once the listener is on the list. -/
theorem run_of_enrolled (Kept : Node K → Prop) {newcomer : Newcomer K}
    (henrolled : newcomer.enrolment = .enrolled) (hkept : Kept newcomer.node)
    (later : List (NewcomerAction K))
    (hact : ∀ node action, .meanwhile action ∈ later → action ≠ .register → Kept node →
      Kept (node.act action)) : Kept (newcomer.run later).node := by
  induction later generalizing newcomer with
  | nil => exact hkept
  | cons action rest ih =>
      have hrest : ∀ node action, .meanwhile action ∈ rest → action ≠ .register → Kept node →
          Kept (node.act action) :=
        fun node action hmem => hact node action (List.mem_cons_of_mem _ hmem)
      change Kept ((newcomer.step action).run rest).node
      rcases step_of_enrolled henrolled action with hsame | ⟨taken, rfl, hother, htaken⟩
      · rw [hsame]
        exact ih henrolled hkept hrest
      · rw [htaken]
        exact ih henrolled (hact _ taken List.mem_cons_self hother hkept) hrest

/-- A listener that registers while anything else happens, and that has read a snapshot when it puts
itself on the list.  If that snapshot is the one which is in effect once the installation under way
is over, then the gate stands at the snapshot in effect whenever nothing is being installed, and
nothing is armed outside.  And as long as no installation begins after that, gate and armings stay at
the snapshot that was read, while the other one takes effect. -/
theorem run_enrol {initial : Snapshot} {config : Config} {now : Instant} {fresh : Node K}
    (hnew : Node.new localNode initial partitioner config now = .ok fresh) (observers : Nat)
    (before later : List (NewcomerAction K)) {waiting settled : Newcomer K} {read : Snapshot}
    (hwaiting : (beside fresh observers).run before = waiting)
    (hready : waiting.enrolment = .confined read)
    (hsettled : waiting.run (.enrol :: later) = settled)
    (hidle : settled.node.installation = none) :
    (waiting.node.upcoming = read →
      settled.node.StandsAt partitioner localNode settled.node.notifier.current) ∧
    ((∀ next, .meanwhile (.beginInstall next) ∉ later) →
      settled.node.notifier.current = waiting.node.upcoming ∧
        settled.node.StandsAt partitioner localNode read) := by
  have hfits := (fits_beside hnew observers).run before
  rw [hwaiting] at hfits
  obtain ⟨henrolled, hlisted, hstands, hupcoming⟩ := hfits.enrolled_of_confined hready
  have hrun : waiting.enrol.run later = settled := hsettled
  rw [← hrun] at hidle ⊢
  constructor
  · intro hintime
    have hkeeps : waiting.enrol.node.KeepsUp partitioner localNode := by
      apply hlisted.keepsUp
      rwa [hupcoming, hintime]
    have hsettles := run_of_enrolled (Node.KeepsUp · partitioner localNode) henrolled hkeeps later
      fun node action _ hother hkept => hkept.act hother
    exact hsettles.standsAt hidle
  · intro hnone
    obtain ⟨-, hstands', hupcoming'⟩ := run_of_enrolled
      (fun node => node.Listed partitioner localNode ∧ node.StandsAt partitioner localNode read ∧
        node.upcoming = waiting.node.upcoming)
      henrolled ⟨hlisted, hstands, hupcoming⟩ later (by
        rintro node action hmem hother ⟨hlisted, hstands, hupcoming⟩
        rcases Node.act_begins_or_passes hlisted.bypassed hother with ⟨next, rfl, -⟩ | hpasses
        · exact absurd hmem (hnone next)
        · exact ⟨hlisted.passes hpasses, hstands.gated hpasses.scheduler,
            hpasses.upcoming.trans hupcoming⟩)
    exact ⟨(Node.upcoming_of_idle hidle).symm.trans hupcoming', hstands'⟩

/-- A listener reads when a transition has taken effect already that somebody else has yet to hear of
once more; then it hears of another one. -/
def timelyRegistration (second : Snapshot) : List (NewcomerAction UInt64) :=
  [.meanwhile (.schedule 1 50), .meanwhile (.beginInstall second), .meanwhile .advanceInstall,
    .meanwhile .advanceInstall, .read, .confine]

/-- After such a registration the node stands at the third snapshot when that is installed. -/
theorem run_enrol_timelyRegistration :
    ∃ second third fresh waiting settled,
      Node.new 0 (.ofParts 1 [0, 1] [[0], [1], [1], [1]]) (.modulo 4)
        { segmentCount := 4 } 0 = .ok fresh ∧
      (beside fresh 1).run (timelyRegistration second) = waiting ∧
      waiting.enrolment = .confined second ∧ waiting.node.upcoming = second ∧
      waiting.run (.enrol :: ([.advanceInstall, .advanceInstall, .schedule 0 50,
        .beginInstall third, .advanceInstall, .advanceInstall, .narrowGate, .advanceInstall,
        .advanceInstall, .advanceInstall, .advanceInstall,
        .advanceInstall].map .meanwhile)) = settled ∧
      settled.node.installation = none ∧ settled.node.notifier.current = third ∧
      settled.node.StandsAt (.modulo 4) 0 settled.node.notifier.current := by
  have hnew : Node.new 0 (.ofParts 1 [0, 1] [[0], [1], [1], [1]]) (.modulo 4)
      { segmentCount := 4 } 0 = .ok _ := rfl
  refine ⟨.ofParts 2 [0, 1] [[0], [0], [1], [1]], .ofParts 3 [0, 1] [[1], [0], [0], [1]], _, _, _,
    hnew, rfl, rfl, rfl, rfl, rfl, rfl, ?_⟩
  exact (run_enrol hnew 1 _ _ rfl rfl rfl rfl).1 rfl

/-- A listener reads and puts itself on the list while a transition is announced to somebody else, and
an entry is armed in between. -/
def hurriedRegistration (second : Snapshot) : List (NewcomerAction UInt64) :=
  [.meanwhile (.beginInstall second), .meanwhile .advanceInstall, .read, .narrow, .confine,
    .meanwhile (.schedule 0 50), .enrol, .meanwhile .advanceInstall, .meanwhile .advanceInstall,
    .meanwhile .advanceInstall]

/-- Such a listener hears nothing of the transition: when everything is over its gate stands at
segments that the node does not own, and an entry of one of them is armed. -/
theorem exists_missed_transition :
    ∃ second fresh missed, Node.new 0 (.ofParts 1 [0, 1] [[0], [1], [1], [1]]) (.modulo 4)
        { segmentCount := 4 } 0 = .ok fresh ∧
      (beside fresh 1).run (hurriedRegistration second) = missed ∧
      missed.enrolment = .enrolled ∧ missed.node.installation = none ∧
      missed.node.listener.executor = fresh.listener.executor ∧
      missed.node.notifier.current = second ∧
      (∃ locality, missed.node.scheduler.gate = ⟨some 1, .segments locality⟩ ∧
        locality.segments ≠ missed.node.notifier.current.primarySegments 0) ∧
      ¬ missed.node.ArmsWithin (.modulo 4) 0 missed.node.notifier.current := by
  refine ⟨.ofParts 2 [0, 1] [[1], [0], [1], [1]], _, _, rfl, rfl, rfl, rfl, rfl, rfl,
    ⟨_, rfl, by decide⟩, fun hwithin => ?_⟩
  have howned := hwithin ⟨0, 50, 1⟩ (List.mem_singleton.mpr rfl)
  revert howned
  decide

/-- Registering as a whole takes the steps of a registration with nothing in between. -/
theorem run_register (node : Node K) :
    (Newcomer.mk node .outside).run [.read, .confine, .enrol] = ⟨node.register, .enrolled⟩ :=
  rfl

/-- A listener has taken all steps of a registration or none. -/
inductive Whole : Newcomer K → Prop where
  | outside {node : Node K} (hunregistered : node.registration = none) : Whole ⟨node, .outside⟩
  | enrolled {node : Node K} (hregistered : node.registration.isSome = true) :
      Whole ⟨node, .enrolled⟩

/-- A step of a node, unfolded, does to the node what it does as a whole. -/
theorem Whole.run_unfolded {newcomer : Newcomer K} (hwhole : newcomer.Whole)
    (action : NodeAction K) :
    (newcomer.run action.unfolded).Whole ∧
      (newcomer.run action.unfolded).node = newcomer.node.act action := by
  by_cases hregister : action = .register
  · subst hregister
    cases hwhole with
    | @outside node hunregistered =>
        rw [NodeAction.unfolded, run_register]
        exact ⟨.enrolled rfl, by simp [Node.act, hunregistered]⟩
    | enrolled hregistered => exact ⟨.enrolled hregistered, (Node.act_register hregistered).symm⟩
  · have hrun : newcomer.run action.unfolded =
        { newcomer with node := newcomer.node.act action } := by
      rw [← newcomer.proceed_of_ne_register hregister]
      cases action with
      | register => exact absurd rfl hregister
      | _ => rfl
    have hsame := newcomer.node.registration_act_of_ne_register hregister
    rw [hrun]
    refine ⟨?_, rfl⟩
    cases hwhole with
    | outside hunregistered => exact .outside (hsame.trans hunregistered)
    | enrolled hregistered => exact .enrolled (hsame ▸ hregistered)

/-- Every run of a node whose listener has yet to register is a run in which the listener registers
step by step. -/
theorem run_flatMap_unfolded (node : Node K) (hunregistered : node.registration = none)
    (actions : List (NodeAction K)) :
    ((Newcomer.mk node .outside).run (actions.flatMap NodeAction.unfolded)).node =
      node.run actions := by
  have hrun : ∀ newcomer : Newcomer K, newcomer.Whole →
      (newcomer.run (actions.flatMap NodeAction.unfolded)).node = newcomer.node.run actions := by
    induction actions with
    | nil => exact fun _ _ => rfl
    | cons action later ih =>
        intro newcomer hwhole
        obtain ⟨hwhole', hact⟩ := hwhole.run_unfolded action
        rw [List.flatMap_cons, Newcomer.run, List.foldl_append]
        exact (ih _ hwhole').trans (congrArg (Node.run · later) hact)
  exact hrun _ (.outside hunregistered)

end Newcomer

end Custody
