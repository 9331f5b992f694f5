/-
# Sessions are runs

Installing a snapshot takes as many single steps as its listeners need, and so does every command of a
session that leaves the registration and the scheduler open.  Whatever holds along every run therefore
holds of the node of every such session.
-/

import Custody.Node.Session
import Custody.Proofs.Node.Resting

namespace Custody

namespace Installation

variable {K : Type} {installation : Installation K}

/-- The number of steps that an installation has yet to take until it is done. -/
def stepsLeft (installation : Installation K) : Nat :=
  match installation.phase with
  | .pre =>
      2 * installation.unheard.length + installation.cancelling.toList.length + 1 +
        installation.transition.audience.length
  | .post => installation.unheard.length + installation.cancelling.toList.length

theorem isDone_of_stepsLeft (hleft : installation.stepsLeft = 0) : installation.isDone = true := by
  rw [isDone_eq_true]
  cases hphase : installation.phase with
  | pre => simp [stepsLeft, hphase] at hleft
  | post =>
      cases hcancelling : installation.cancelling with
      | none => simpa [stepsLeft, hphase, hcancelling] using hleft
      | some kept => simp [stepsLeft, hphase, hcancelling] at hleft

end Installation

namespace Node

variable {K : Type} [DecidableEq K] {pass : Pass (SchedulingPass K)}

omit [DecidableEq K] in
/-- An installation that is not done comes nearer to its end. -/
theorem InstallStep.stepsLeft_lt {before after : Node K} {installation : Installation K}
    (hstep : before.InstallStep .advanceInstall after)
    (hinstalling : before.installation = some installation) (hundone : installation.isDone = false) :
    ∃ later, after.installation = some later ∧ later.stepsLeft < installation.stepsLeft := by
  cases hstep with
  | swept other kept hsame hcancelling =>
      obtain rfl := Option.some.inj (hsame.symm.trans hinstalling)
      refine ⟨_, rfl, ?_⟩
      cases hphase : other.phase <;> simp [Installation.stepsLeft, hphase, hcancelling]
  | observed other id unheard hsame hresting hnext hobserver =>
      obtain rfl := Option.some.inj (hsame.symm.trans hinstalling)
      refine ⟨_, rfl, ?_⟩
      cases hphase : other.phase <;> simp [Installation.stepsLeft, hphase, hresting, hnext]
  | unaffected other id unheard hhears =>
      obtain rfl := Option.some.inj (hhears.installing.symm.trans hinstalling)
      refine ⟨_, rfl, ?_⟩
      cases hphase : other.phase <;> simp [Installation.stepsLeft, hphase, hhears.resting, hhears.next]
  | lossBegun other id unheard kept lost hhears =>
      obtain rfl := Option.some.inj (hhears.installing.symm.trans hinstalling)
      have hphase : other.phase = .pre := (OwnershipChange.of_losing hhears.change).1
      refine ⟨_, rfl, ?_⟩
      simp [Installation.stepsLeft, hphase, hhears.resting, hhears.next]
      omega
  | takenUp other id unheard old new gained handle hhears =>
      obtain rfl := Option.some.inj (hhears.installing.symm.trans hinstalling)
      refine ⟨_, rfl, ?_⟩
      cases hphase : other.phase <;> simp [Installation.stepsLeft, hphase, hhears.resting, hhears.next]
  | applied other hsame hresting hheard hphase =>
      obtain rfl := Option.some.inj (hsame.symm.trans hinstalling)
      refine ⟨_, rfl, ?_⟩
      simp [Installation.stepsLeft, hphase, hresting, hheard]
  | ended other hsame hdone =>
      obtain rfl := Option.some.inj (hsame.symm.trans hinstalling)
      exact absurd (hundone.symm.trans hdone) Bool.false_ne_true

omit [DecidableEq K] in
/-- An installation that is done stays as it is until it is ended. -/
theorem advanceInstallBy_of_isDone {node : Node K} {installation : Installation K}
    (hinstalling : node.installation = some installation) (hdone : installation.isDone = true)
    (steps : Nat) : node.advanceInstallBy steps = node := by
  obtain ⟨hphase, hheard, hresting⟩ := Installation.isDone_eq_true.mp hdone
  have hstays : node.advanceInstall = node := by
    simp [advanceInstall, hinstalling, hphase, hheard, hresting]
  induction steps with
  | zero => rfl
  | succ steps ih => rw [advanceInstallBy, hstays, ih]

theorem reaches_endInstall_of_isDone {node : Node K} {installation : Installation K}
    (hinstalling : node.installation = some installation) (hdone : installation.isDone = true) :
    node.Reaches node.endInstall.2 ∧ node.endInstall.2.installation = none := by
  have hend : node.endInstall.2 = { node with installation := none } := by
    simp [endInstall, hinstalling, hdone]
  have hact : node.act .advanceInstall = node.endInstall.2 := by simp [act, hinstalling, hdone]
  constructor
  · rw [← hact]
    exact .act _ _
  · rw [hend]

/-- An installation that is given enough steps comes to its end. -/
theorem reaches_endInstall {node : Node K} {installation : Installation K}
    (hinstalling : node.installation = some installation) {steps : Nat}
    (henough : installation.stepsLeft ≤ steps) :
    node.Reaches (node.advanceInstallBy steps).endInstall.2 ∧
      (node.advanceInstallBy steps).endInstall.2.installation = none := by
  induction steps generalizing node installation with
  | zero =>
      have hdone := Installation.isDone_of_stepsLeft (Nat.le_zero.mp henough)
      exact reaches_endInstall_of_isDone hinstalling hdone
  | succ steps ih =>
      cases hdone : installation.isDone with
      | true =>
          rw [advanceInstallBy_of_isDone hinstalling hdone]
          exact reaches_endInstall_of_isDone hinstalling hdone
      | false =>
          have hadvance : node.act .advanceInstall = node.advanceInstall := by
            simp [act, hinstalling, hdone]
          have hstep := installStep_of_installing hinstalling
          rw [hadvance] at hstep
          obtain ⟨later, hlater, hlt⟩ := hstep.stepsLeft_lt hinstalling hdone
          obtain ⟨hreaches, hidle⟩ := ih hlater (Nat.le_of_lt_succ (Nat.lt_of_lt_of_le hlt henough))
          have hfirst : node.Reaches node.advanceInstall := hadvance ▸ .act node .advanceInstall
          exact ⟨hfirst.trans hreaches, hidle⟩

omit [DecidableEq K] in
/-- A transition that begins has as many steps left as it is given. -/
theorem stepsLeft_of_beginInstall {node begun : Node K} {next : Snapshot}
    (hbegin : node.beginInstall next = .ok begun) :
    ∃ installation, begun.installation = some installation ∧
      installation.stepsLeft ≤ 3 * node.notifier.listeners.length + 1 := by
  unfold beginInstall Notifier.propose at hbegin
  split at hbegin
  · cases hbegin
  · obtain rfl := Except.ok.inj hbegin
    refine ⟨_, rfl, ?_⟩
    simp only [Installation.stepsLeft, Option.toList_none, List.length_nil]
    omega

/-- A snapshot is installed by single steps, and the installation is over then. -/
theorem reaches_install {node : Node K} (hidle : node.installation = none) {next : Snapshot}
    {handles : List Handle} {after : Node K} (hinstall : node.install next = .ok (handles, after)) :
    node.Reaches after ∧ after.installation = none := by
  unfold install at hinstall
  cases hbegin : node.beginInstall next with
  | error failure => simp [hbegin, Except.map] at hinstall
  | ok begun =>
      have hafter : (begun.advanceInstallBy
          (3 * node.notifier.listeners.length + 1)).endInstall.2 = after := by
        simp only [hbegin, Except.map] at hinstall
        rw [Except.ok.inj hinstall]
      have hact : node.act (.beginInstall next) = begun := by simp [act, hidle, hbegin]
      obtain ⟨installation, hinstalling, hleft⟩ := stepsLeft_of_beginInstall hbegin
      obtain ⟨hreaches, hover⟩ := reaches_endInstall hinstalling hleft
      have hfirst : node.Reaches begun := hact ▸ .act node (.beginInstall next)
      rw [← hafter]
      exact ⟨hfirst.trans hreaches, hover⟩

theorem orderly_stepWork {node : Node K} (horderly : node.listener.executor.Orderly)
    (hbegun : pass ∈ node.listener.executor.begun) :
    (node.stepWork pass).listener.executor.Orderly := by
  cases hwork : pass.work with
  | waiting old new =>
      simp only [stepWork, hwork]
      split
      · exact horderly.setWork _ _
      · exact horderly.setWork _ _
  | asking gained =>
      simp only [stepWork, hwork]
      split
      · exact horderly
      · exact horderly.setWork _ _
  | returned result =>
      simp only [stepWork, hwork]
      exact horderly.workReturned (horderly.queue_apart hbegun) result
  | _ =>
      simp only [stepWork, hwork]
      exact horderly.setWork _ _

omit [DecidableEq K] in
theorem InstallStep.orderly {before after : Node K} {action : NodeAction K}
    (hstep : before.InstallStep action after) (horderly : before.listener.executor.Orderly) :
    after.listener.executor.Orderly := by
  cases hstep with
  | lossBegun installation id unheard kept lost hhears => exact horderly.cancelCurrent
  | takenUp installation id unheard old new gained handle hhears => exact horderly.submit _
  | _ => exact horderly

theorem Aligned.orderly_act {node : Node K} (haligned : node.Aligned)
    (horderly : node.listener.executor.Orderly) (action : NodeAction K) :
    (node.act action).listener.executor.Orderly := by
  cases action with
  | beginInstall next =>
      rcases act_beginInstall node next with hsame | hstep
      · exact hsame.symm ▸ horderly
      · exact hstep.orderly horderly
  | narrowGate =>
      rcases act_narrowGate node with hsame | hstep
      · exact hsame.symm ▸ horderly
      · exact hstep.orderly horderly
  | advanceInstall =>
      rcases act_advanceInstall node with hsame | hstep
      · exact hsame.symm ▸ horderly
      · exact hstep.orderly horderly
  | register => exact (act_register haligned.registered).symm ▸ horderly
  | takeNext => exact horderly.takeNext
  | noticeCancellation => exact horderly.noticeCancellation
  | passStep id =>
      simp only [Node.act]
      split
      · next pass hbegun => exact orderly_stepWork horderly (List.mem_of_find?_eq_some hbegun)
      · exact horderly
  | _ => exact horderly

/-- A node whose listener is registered, whose executor is orderly, and which is installing
nothing. -/
structure Ready (node : Node K) : Prop where
  aligned : node.Aligned
  orderly : node.listener.executor.Orderly
  idle : node.installation = none

theorem Ready.reaches {node after : Node K} (hready : node.Ready) (hreaches : node.Reaches after)
    (hidle : after.installation = none) : after.Ready := by
  obtain ⟨actions, rfl⟩ := hreaches
  have hkept : ∀ (actions : List (NodeAction K)) (node : Node K), node.Aligned →
      node.listener.executor.Orderly → (node.run actions).listener.executor.Orderly := by
    intro actions
    induction actions with
    | nil => exact fun node _ horderly => horderly
    | cons action later ih =>
        intro node haligned horderly
        exact ih _ (haligned.act action) (haligned.orderly_act horderly action)
  exact ⟨hready.aligned.run actions, hkept actions node hready.aligned hready.orderly, hidle⟩

omit [DecidableEq K] in
/-- A listener that only looks on may join a node that is ready. -/
theorem Ready.addObserver {node : Node K} (hready : node.Ready)
    (hfresh : node.notifier.nextListener ∉ node.notifier.listeners) : node.addObserver.Ready := by
  obtain ⟨⟨⟨listener, hlistening⟩, -, hgate, htopology, harmed⟩, horderly, hidle⟩ := hready
  have hstage : node.addObserver.stage = node.stage := by
    rw [stage_of_idle hidle]
    exact stage_of_idle hidle
  have hold : listener ≠ node.notifier.nextListener := by
    rintro rfl
    exact hfresh hlistening.listed
  have hlisten : node.addObserver.Listening listener := by
    refine ⟨hlistening.registered, List.mem_append_left _ hlistening.listed,
      Notifier.nodup_addListener hlistening.once hfresh, ?_, ?_⟩
    · intro other hmem hother
      rcases List.mem_append.mp hmem with hbefore | hnew
      · exact hlistening.only other hbefore fun hobserver =>
          hother (List.mem_append_left _ hobserver)
      · exact absurd (List.mem_append_right _ hnew) hother
    · intro hmem
      rcases List.mem_append.mp hmem with hbefore | hnew
      · exact hlistening.own hbefore
      · exact hold (List.mem_singleton.mp hnew)
  refine ⟨⟨⟨listener, hlisten⟩, fun installation hinstalling => ?_, ?_, ?_, ?_⟩, horderly, hidle⟩
  · cases hidle.symm.trans hinstalling
  · rw [hstage]
    exact hgate
  · rw [hstage]
    exact htopology
  · rw [hstage]
    exact harmed

omit [DecidableEq K] in
theorem ready_register {localNode : NodeId} {initial : Snapshot} {partitioner : Partitioner K}
    {config : Config} {now : Instant} {fresh : Node K}
    (hnew : Node.new localNode initial partitioner config now = .ok fresh) :
    fresh.register.Ready := by
  have haligned := (aligned_register hnew).1
  obtain rfl := new_eq_ok hnew
  exact ⟨haligned, Executor.orderly_new _, rfl⟩

end Node

/-- Whether a command leaves the registration and the scheduler open.  A single announcement, heard
out of turn, is no part of an installation. -/
def NodeCommand.KeepsOpen {K : Type} : NodeCommand K → Prop
  | deliver _ _ _ | close | shutdown => False
  | _ => True

namespace NodeSession

variable {K : Type} [DecidableEq K]

/-- A node that is ready is led by single steps to another that is. -/
structure Leads (before after : Node K) : Prop where
  reaches : before.Reaches after
  ready : after.Ready

theorem Leads.trans {first second third : Node K} (hfirst : Leads first second)
    (hsecond : Leads second third) : Leads first third :=
  ⟨hfirst.reaches.trans hsecond.reaches, hsecond.ready⟩

variable {session : NodeSession K}

theorem leads_act {node : Node K} (hready : node.Ready) (action : NodeAction K)
    (hidle : (node.act action).installation = none) : Leads node (node.act action) :=
  ⟨.act node action, hready.reaches (.act node action) hidle⟩

theorem leads_put {node : Node K} (hready : node.Ready) (id : K) (deadline : Instant) :
    Leads node (node.put id deadline) := by
  have hstored := leads_act hready (.store id deadline) hready.idle
  exact hstored.trans (leads_act hstored.ready (.schedule id deadline) hready.idle)

theorem leads_puts {node : Node K} (hready : node.Ready) (ids : List K) (deadline : Instant) :
    Leads node (ids.foldl (fun node id => node.put id deadline) node) := by
  induction ids generalizing node with
  | nil => exact ⟨.refl _, hready⟩
  | cons id rest ih =>
      have hfirst := leads_put hready id deadline
      exact hfirst.trans (ih hfirst.ready)

theorem leads_settle {node : Node K} (hready : node.Ready) : Leads node node.settle := by
  have hreaches := (node.reaches_settle hready.orderly).1
  exact ⟨hreaches, hready.reaches hreaches hready.idle⟩

theorem leads_install {node : Node K} (hready : node.Ready) {next : Snapshot}
    {handles : List Handle} {after : Node K} (hinstall : node.install next = .ok (handles, after)) :
    Leads node after := by
  obtain ⟨hreaches, hidle⟩ := Node.reaches_install hready.idle hinstall
  exact ⟨hreaches, hready.reaches hreaches hidle⟩

theorem leads_keepAll (hready : session.node.Ready) (next : Snapshot) :
    Leads session.node (session.keepAll (session.node.install next)).2.node := by
  unfold keepAll
  split
  · exact ⟨.refl _, hready⟩
  · next handles node hinstall => exact leads_install hready hinstall

/-- A command that keeps everything open is carried out by single steps. -/
theorem leads_perform (hready : session.node.Ready) (command : NodeCommand K)
    (hopen : command.KeepsOpen) : Leads session.node (session.perform command).2.node := by
  have hidle := hready.idle
  cases command with
  | put ids delay => exact leads_puts hready ids _
  | store id delay => exact leads_act hready (.store id _) hidle
  | unstore id => exact leads_act hready (.unstore id) hidle
  | schedule id delay => exact leads_act hready (.schedule id _) hidle
  | cancel id => exact leads_act hready (.cancel id) hidle
  | install next => exact leads_keepAll hready next
  | installAndWait next =>
      simp only [perform]
      split
      · exact ⟨.refl _, hready⟩
      · next handles node hinstall =>
          have hinstalled := leads_install hready hinstall
          exact hinstalled.trans (leads_settle hinstalled.ready)
  | installRing ring => exact leads_keepAll hready _
  | deliver phase old new => exact hopen.elim
  | setPaused paused => exact leads_act hready (.setPaused paused) hidle
  | failNext detail => exact leads_act hready (.failNext detail) hidle
  | advance elapsed => exact leads_act hready (.advance elapsed) hidle
  | close => exact hopen.elim
  | shutdown => exact hopen.elim

theorem leads_performAll (hready : session.node.Ready) (burst : List (NodeCommand K))
    (hopen : ∀ command ∈ burst, command.KeepsOpen) :
    Leads session.node (session.performAll burst).2.node := by
  induction burst generalizing session with
  | nil => exact ⟨.refl _, hready⟩
  | cons command rest ih =>
      have hfirst := leads_perform hready command (hopen command List.mem_cons_self)
      exact hfirst.trans
        (ih hfirst.ready fun later hlater => hopen later (List.mem_cons_of_mem _ hlater))

/-- What a session makes of a node that is ready, single steps make of it. -/
theorem leads_run (hready : session.node.Ready) (bursts : List (List (NodeCommand K)))
    (hopen : ∀ burst ∈ bursts, ∀ command ∈ burst, command.KeepsOpen) :
    Leads session.node (session.run bursts).node := by
  induction bursts generalizing session with
  | nil => exact ⟨.refl _, hready⟩
  | cons burst rest ih =>
      have hfirst := leads_performAll hready burst (hopen burst List.mem_cons_self)
      have hrested := hfirst.trans (leads_settle hfirst.ready)
      have hlater : Leads (session.exec burst).2.2.node
          (NodeSession.run (session.exec burst).2.2 rest).node :=
        ih hrested.ready fun later hlater => hopen later (List.mem_cons_of_mem _ hlater)
      exact hrested.trans hlater

omit [DecidableEq K] in
/-- A session starts with a node that is ready. -/
theorem ready_start {localNode : NodeId} {initial : Snapshot} {partitioner : Partitioner K}
    {config : Config} {observed canRunTimers : Bool}
    (hstart : start localNode initial partitioner config observed canRunTimers = .ok session) :
    session.node.Ready ∧ session.node.localNode = localNode ∧
      session.node.listener.partitioner = partitioner := by
  cases canRunTimers with
  | false => cases hstart
  | true =>
      cases hnew : Node.new localNode initial partitioner config 0 with
      | error failure => simp [start, Scheduler.newWithin, hnew, Except.map] at hstart
      | ok fresh =>
          have hready := Node.ready_register hnew
          obtain ⟨-, hlocal, hpartitioner⟩ := Node.aligned_register hnew
          have hsession : session =
              ⟨if observed then fresh.register.addObserver else fresh.register, [], 0⟩ := by
            simpa [start, Scheduler.newWithin, hnew, Except.map] using hstart.symm
          subst hsession
          cases observed with
          | false => exact ⟨hready, hlocal, hpartitioner⟩
          | true =>
              refine ⟨hready.addObserver ?_, hlocal, hpartitioner⟩
              obtain rfl := Node.new_eq_ok hnew
              show (2 : ListenerId) ∉ [1]
              decide

/-- At every rest of a session that keeps everything open, whatever is armed is owned under the
snapshot in effect. -/
theorem armed_subset_current {localNode : NodeId} {initial : Snapshot} {partitioner : Partitioner K}
    {config : Config} {observed canRunTimers : Bool}
    (hstart : start localNode initial partitioner config observed canRunTimers = .ok session)
    {bursts : List (List (NodeCommand K))}
    (hopen : ∀ burst ∈ bursts, ∀ command ∈ burst, command.KeepsOpen) :
    ∀ arming ∈ (session.run bursts).node.scheduler.armed, partitioner.segmentOf arming.id ∈
      (session.run bursts).node.notifier.current.primarySegments localNode := by
  obtain ⟨hready, hlocal, hpartitioner⟩ := ready_start hstart
  have hleads := leads_run hready bursts hopen
  have haligned := hleads.ready.aligned
  obtain ⟨actions, hrun⟩ := hleads.reaches
  obtain ⟨hsame, hplaced⟩ := hready.aligned.run_identity actions
  rw [hrun] at hsame hplaced
  intro arming hmem
  rw [← hlocal, ← hsame, ← hpartitioner, ← hplaced]
  exact haligned.armed arming hmem _ haligned.current_mem_bounds

end NodeSession

end Custody
