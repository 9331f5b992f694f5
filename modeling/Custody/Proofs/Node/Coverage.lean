/-
# Who minds an entry

A node minds an entry if it has it armed, or does not own it, or has a pass that will still offer it.
Most steps of a node leave every entry as well minded as it was.  There is one exception: an
announcement that asks for something supersedes the current pass, and what that pass had still ahead
is dropped.  The next pass only covers what the new transition gains, so that a dropped entry is
neglected until its segment is gained anew, or until somebody asks for it to be armed.
-/

import Custody.Proofs.Node.Calm
import Custody.Proofs.Node.Moves

namespace Custody

namespace Executor

variable {K : Type}

/-- Whether some pass will still offer an entry. -/
def Covers (executor : Executor (SchedulingPass K)) (id : K) : Prop :=
  ∃ pass ∈ executor.live, pass.work.Covers pass.cancelled id

/-- Whether some pass other than a given one will still offer an entry. -/
def CoversBeside (executor : Executor (SchedulingPass K)) (number : PassId) (id : K) : Prop :=
  ∃ pass ∈ executor.live, pass.id ≠ number ∧ pass.work.Covers pass.cancelled id

/-- Whether some pass has an entry in hand. -/
def Holds (executor : Executor (SchedulingPass K)) (id : K) : Prop :=
  ∃ pass ∈ executor.live, pass.work.InHand id

/-- Passes that were told to stop cover only what is in hand. -/
theorem covers_stop {executor : Executor (SchedulingPass K)} {id : K} :
    (∃ pass ∈ executor.live.map Pass.stop, pass.work.Covers pass.cancelled id) ↔
      executor.Holds id := by
  constructor
  · rintro ⟨stopped, hstopped, hcovers⟩
    obtain ⟨pass, hpass, rfl⟩ := List.mem_map.mp hstopped
    rcases hcovers with hhand | ⟨hlively, -⟩
    · exact ⟨pass, hpass, hhand⟩
    · cases hlively
  · rintro ⟨pass, hpass, hhand⟩
    exact ⟨pass.stop, List.mem_map_of_mem hpass, Or.inl hhand⟩

theorem covers_of_holds {executor : Executor (SchedulingPass K)} {id : K}
    (hholds : executor.Holds id) : executor.Covers id := by
  obtain ⟨pass, hpass, hhand⟩ := hholds
  exact ⟨pass, hpass, Or.inl hhand⟩

variable {executor : Executor (SchedulingPass K)} {id : K}

theorem covers_congr {after : Executor (SchedulingPass K)} (hlive : after.live.Perm executor.live) :
    after.Covers id ↔ executor.Covers id := by
  simp only [Covers, hlive.mem_iff]

/-- An entry is covered by a given pass or beside it. -/
theorem Orderly.covers_iff (horderly : executor.Orderly) {pass : Pass (SchedulingPass K)}
    (hpass : pass ∈ executor.live) : executor.Covers id ↔
      pass.work.Covers pass.cancelled id ∨ executor.CoversBeside pass.id id := by
  constructor
  · rintro ⟨other, hother, hcovers⟩
    by_cases hsame : other.id = pass.id
    · obtain rfl := horderly.eq_of_id hother hpass hsame
      exact Or.inl hcovers
    · exact Or.inr ⟨other, hother, hsame, hcovers⟩
  · rintro (hcovers | ⟨other, hother, -, hcovers⟩)
    · exact ⟨pass, hpass, hcovers⟩
    · exact ⟨other, hother, hcovers⟩

theorem Orderly.covers_setWork (horderly : executor.Orderly) {pass : Pass (SchedulingPass K)}
    (hpass : pass ∈ executor.live) (work : SchedulingPass K) :
    (executor.setWork pass.id work).Covers id ↔
      work.Covers pass.cancelled id ∨ executor.CoversBeside pass.id id := by
  constructor
  · rintro ⟨other, hother, hcovers⟩
    rcases (horderly.mem_live_setWork hpass work).mp hother with ⟨hold, hapart⟩ | rfl
    · exact Or.inr ⟨other, hold, hapart, hcovers⟩
    · exact Or.inl hcovers
  · rintro (hcovers | ⟨other, hother, hapart, hcovers⟩)
    · exact ⟨_, (horderly.mem_live_setWork hpass work).mpr (Or.inr rfl), hcovers⟩
    · exact ⟨other, (horderly.mem_live_setWork hpass work).mpr (Or.inl ⟨hother, hapart⟩), hcovers⟩

/-- What is covered does not change when a pass goes on to cover the same. -/
theorem Orderly.covers_setWork_of_iff (horderly : executor.Orderly)
    {pass : Pass (SchedulingPass K)} (hpass : pass ∈ executor.live) {work : SchedulingPass K}
    (hsame : work.Covers pass.cancelled id ↔ pass.work.Covers pass.cancelled id) :
    (executor.setWork pass.id work).Covers id ↔ executor.Covers id := by
  rw [horderly.covers_setWork hpass, horderly.covers_iff hpass, hsame]

theorem Orderly.covers_workReturned (horderly : executor.Orderly) {number : PassId}
    (hqueue : ∀ other ∈ executor.queue, other.id ≠ number) (result : Except Error Report) :
    (executor.workReturned number result).Covers id ↔ executor.CoversBeside number id := by
  simp only [Covers, CoversBeside, horderly.live_workReturned hqueue, List.mem_filter,
    decide_eq_true_eq, and_assoc]

/-- When the current pass is superseded, only what is in hand stays covered. -/
theorem Orderly.covers_cancelCurrent (horderly : executor.Orderly) :
    executor.cancelCurrent.2.Covers id ↔ executor.Holds id := by
  rw [Covers, horderly.live_cancelCurrent]
  exact covers_stop

/-- A pass that is submitted covers what it will gain. -/
theorem Orderly.covers_submit (horderly : executor.Orderly) (old new : SegmentLocality K) :
    (executor.submit (.waiting old new)).2.Covers id ↔
      (new.gainedSince old).owns id = true ∨ executor.Holds id := by
  rw [← covers_stop]
  constructor
  · rintro ⟨pass, hpass, hcovers⟩
    rcases List.mem_cons.mp ((horderly.live_submit _).subset hpass) with rfl | hold
    · rcases hcovers with hhand | ⟨-, hahead⟩
      · exact hhand.elim
      · exact Or.inl hahead
    · exact Or.inr ⟨pass, hold, hcovers⟩
  · rintro (hgained | ⟨pass, hpass, hcovers⟩)
    · exact ⟨_, (horderly.live_submit _).mem_iff.mpr List.mem_cons_self, Or.inr ⟨rfl, hgained⟩⟩
    · exact ⟨pass, (horderly.live_submit _).mem_iff.mpr (List.mem_cons_of_mem _ hpass), hcovers⟩

end Executor

namespace Calm

variable {K : Type} [DecidableEq K] {horizon : Instant} {executor : Executor (SchedulingPass K)}
  {scheduler : Scheduler K} {store : Store K}

/-- A pass that was cancelled before it began has covered nothing. -/
theorem covers_takeNext (hcalm : Calm horizon executor scheduler store) {id : K} :
    executor.takeNext.Covers id ↔ executor.Covers id := by
  rcases executor.live_takeNext with hsame | ⟨lost, hqueued, hcancelled, hlost⟩
  · exact Executor.covers_congr (.of_eq hsame)
  · obtain ⟨old, new, hwork⟩ := hcalm.queued lost.work (List.mem_map_of_mem hqueued)
    have hnothing : ¬ lost.work.Covers lost.cancelled id := by
      simp [hwork, hcancelled, SchedulingPass.Covers, SchedulingPass.InHand]
    constructor
    · rintro ⟨pass, hpass, hcovers⟩
      exact ⟨pass, hlost ▸ List.mem_cons_of_mem _ hpass, hcovers⟩
    · rintro ⟨pass, hpass, hcovers⟩
      rw [hlost] at hpass
      rcases List.mem_cons.mp hpass with rfl | hkept
      · exact absurd hcovers hnothing
      · exact ⟨pass, hkept, hcovers⟩

end Calm

namespace Node

variable {K : Type}

/-- Whether a step supersedes the pass under way, if there is one. -/
def Supersedes (node : Node K) (action : NodeAction K) : Prop :=
  action = .advanceInstall ∧ ∃ installation listener unheard change,
    node.Hears installation listener unheard change ∧ change ≠ .unchanged

/-- Whether a step takes up the segment of an entry. -/
def TakesUp (node : Node K) (action : NodeAction K) (id : K) : Prop :=
  action = .advanceInstall ∧ ∃ installation listener unheard old new gained,
    node.Hears installation listener unheard (.gained old new gained) ∧
      node.listener.partitioner.segmentOf id ∈ gained

/-- Whether a step asks for an entry to be armed, or takes up its segment. -/
def Restores (node : Node K) (action : NodeAction K) (id : K) : Prop :=
  (∃ deadline, action = .schedule id deadline) ∨ node.TakesUp action id

variable [DecidableEq K]

/-- Whether a node looks after an entry as far as it has to. -/
def Minds (node : Node K) (id : K) : Prop :=
  node.scheduler.contains id = true ∨ node.scheduler.gate.locality.owns id = false ∨
    node.listener.executor.Covers id

/-- Whether nothing that a node has begun will arm an entry. -/
def Neglects (node : Node K) (id : K) : Prop :=
  node.scheduler.contains id = false ∧ ¬ node.listener.executor.Covers id

/-- Whether a step supersedes the pass that had a stored entry still ahead, while the entry is not
armed, in nobody's hand, and its segment not taken up by the same step. -/
structure Drops (node : Node K) (action : NodeAction K) (id : K) : Prop where
  supersedes : node.Supersedes action
  stored : node.store.contains id = true
  covered : node.listener.executor.Covers id
  unarmed : node.scheduler.contains id = false
  unheld : ¬ node.listener.executor.Holds id
  untaken : ¬ node.TakesUp action id

/-- A step leaves an entry as well minded as it was. -/
structure Spares (before after : Node K) (id : K) : Prop where
  minds : before.Minds id → after.Minds id
  neglects : before.Neglects id → after.Neglects id

namespace Spares

variable {before after : Node K} {id : K}

/-- The gate and the armings at most shrink together, and the passes cover the same. -/
theorem of_scheduler
    (hcovers : after.listener.executor.Covers id ↔ before.listener.executor.Covers id)
    (hgate : before.scheduler.gate.locality.owns id = false →
      after.scheduler.gate.locality.owns id = false)
    (hkept : before.scheduler.contains id = true →
      after.scheduler.contains id = true ∨ after.scheduler.gate.locality.owns id = false)
    (hnew : after.scheduler.contains id = true → before.scheduler.contains id = true) :
    before.Spares after id := by
  constructor
  · rintro (harmed | hforeign | hcovered)
    · rcases hkept harmed with hstill | hgone
      · exact Or.inl hstill
      · exact Or.inr (Or.inl hgone)
    · exact Or.inr (Or.inl (hgate hforeign))
    · exact Or.inr (Or.inr (hcovers.mpr hcovered))
  · intro hneglects
    constructor
    · apply eq_false_of_ne_true
      intro harmed
      exact Bool.false_ne_true (hneglects.1.symm.trans (hnew harmed))
    · intro hcovered
      exact hneglects.2 (hcovers.mp hcovered)

/-- The gate and the armings do not change, and the passes cover the same. -/
theorem of_covers
    (hcovers : after.listener.executor.Covers id ↔ before.listener.executor.Covers id)
    (hgate : after.scheduler.gate = before.scheduler.gate)
    (harmed : after.scheduler.contains id = before.scheduler.contains id) :
    before.Spares after id := by
  apply of_scheduler hcovers
  · rw [hgate]
    exact fun hforeign => hforeign
  · rw [harmed]
    exact fun hcontained => Or.inl hcontained
  · rw [harmed]
    exact fun hcontained => hcontained

end Spares

variable {node : Node K} {horizon : Instant} {id : K}

/-- Asking for another entry to be armed changes nothing for this one. -/
theorem contains_schedule_other {scheduler : Scheduler K} {other : K} (hother : other ≠ id)
    (deadline : Instant) :
    (scheduler.schedule other deadline).2.contains id = scheduler.contains id := by
  obtain ⟨-, -, -, h⟩ | ⟨-, metrics, h⟩ := Scheduler.schedule_cases scheduler other deadline
  · rw [h]
    simp [Scheduler.contains, Scheduler.arm, hother]
  · rw [h]
    rfl

/-- A pass that offers what it has in hand spares every entry: the one that it offers is armed, unless
the gate does not own it. -/
theorem Tidy.spares_offer (htidy : node.Tidy horizon) {number : PassId}
    {pass : Pass (SchedulingPass K)} (hbegun : node.listener.executor.begun? number = some pass)
    {gained : SegmentLocality K} {candidate : Candidate K} {rest : List (Item K)} {report : Report}
    (hwork : pass.work = .holding gained candidate rest report) :
    node.Spares (node.stepWork pass) id := by
  have horderly := htidy.calm.orderly
  have hpass := (horderly.of_begun hbegun).1
  have hfits := htidy.calm.fits pass hpass
  rw [hwork] at hfits
  obtain ⟨offered, hok, howns, -, -⟩ := hfits _ List.mem_cons_self
  obtain rfl := Except.ok.inj hok
  have hplaced : (node.scheduler.place gained candidate report).2 =
      (node.scheduler.schedule candidate.id candidate.deadline).2 := by
    rcases Scheduler.place_cases node.scheduler gained candidate report with ⟨hnot, -⟩ | ⟨-, h⟩
    · exact absurd (hnot.symm.trans howns) Bool.false_ne_true
    · exact h
  have hscheduler : (node.stepWork pass).scheduler =
      (node.scheduler.schedule candidate.id candidate.deadline).2 := by
    simpa only [Node.stepWork, hwork, SchedulingPass.offer] using hplaced
  have hexecutor : (node.stepWork pass).listener.executor =
      node.listener.executor.setWork pass.id
        (.reading gained rest (node.scheduler.place gained candidate report).1) := by
    simp only [Node.stepWork, hwork, SchedulingPass.offer, withExecutor]
  by_cases hsame : candidate.id = id
  · constructor
    · intro _
      rw [Minds, hscheduler, Scheduler.gate_schedule, ← hsame]
      cases howned : node.scheduler.gate.locality.owns candidate.id with
      | false => exact Or.inr (Or.inl rfl)
      | true => exact Or.inl (Scheduler.contains_schedule _ htidy.calm.isOpen howned)
    · intro hneglects
      have hhand : pass.work.InHand id := by
        rw [hwork]
        exact hsame
      exact absurd (Executor.covers_of_holds ⟨pass, hpass, hhand⟩) hneglects.2
  · apply Spares.of_covers
    · rw [hexecutor]
      apply horderly.covers_setWork_of_iff hpass
      simp [hwork, SchedulingPass.Covers, SchedulingPass.InHand, SchedulingPass.Ahead, hsame]
    · rw [hscheduler, Scheduler.gate_schedule]
    · rw [hscheduler, contains_schedule_other hsame]

/-- A pass that goes on spares every entry that is stored: it finds the entry and offers it. -/
theorem Tidy.spares_stepWork (htidy : node.Tidy horizon) (hstored : node.store.contains id = true)
    {number : PassId} {pass : Pass (SchedulingPass K)}
    (hbegun : node.listener.executor.begun? number = some pass) :
    node.Spares (node.stepWork pass) id := by
  have hcalm := htidy.calm
  have horderly := hcalm.orderly
  obtain ⟨hpass, -, hqueue⟩ := horderly.of_begun hbegun
  cases hwork : pass.work with
  | waiting old new =>
      have hsame : (node.listener.executor.setWork pass.id
          (SchedulingPass.waiting old new).start).Covers id ↔ node.listener.executor.Covers id := by
        apply horderly.covers_setWork_of_iff hpass
        rw [hwork]
        exact SchedulingPass.covers_start old new
      simp only [Node.stepWork, hwork]
      split
      · exact .of_covers hsame rfl rfl
      · exact .of_covers hsame rfl rfl
  | asking gained =>
      have hsame : (node.listener.executor.setWork pass.id
          ((SchedulingPass.asking gained).answer (node.store.answer gained).1)).Covers id ↔
          node.listener.executor.Covers id := by
        apply horderly.covers_setWork_of_iff hpass
        rw [hwork]
        exact ⟨SchedulingPass.covers_of_covers_answer hcalm.unfailing,
          SchedulingPass.covers_answer hcalm.unfailing hstored⟩
      simp only [Node.stepWork, hwork]
      split
      · exact .of_covers Iff.rfl rfl rfl
      · exact .of_covers hsame rfl rfl
  | reading gained rest report =>
      have hfits := hcalm.fits pass hpass
      rw [hwork] at hfits
      have hsame : (node.listener.executor.setWork pass.id
          ((SchedulingPass.reading gained rest report).look pass.cancelled)).Covers id ↔
          node.listener.executor.Covers id := by
        apply horderly.covers_setWork_of_iff hpass
        rw [hwork]
        exact SchedulingPass.covers_look hfits
      simp only [Node.stepWork, hwork]
      exact .of_covers hsame rfl rfl
  | holding gained candidate rest report => exact htidy.spares_offer hbegun hwork
  | returned result =>
      have hnothing : ¬ pass.work.Covers pass.cancelled id := by
        simp [hwork, SchedulingPass.Covers, SchedulingPass.InHand, SchedulingPass.Ahead]
      have hsame : (node.listener.executor.workReturned pass.id result).Covers id ↔
          node.listener.executor.Covers id := by
        rw [horderly.covers_workReturned hqueue, horderly.covers_iff hpass]
        simp only [hnothing, false_or]
      simp only [Node.stepWork, hwork]
      exact .of_covers hsame rfl rfl

omit [DecidableEq K] in
/-- Within a cancellation pass the gate owns all that is kept. -/
theorem Aligned.owns_of_kept (haligned : node.Aligned) {installation : Installation K}
    {kept : SegmentLocality K} (hinstalling : node.installation = some installation)
    (hcancelling : installation.cancelling = some kept) (hkept : kept.owns id = true) :
    node.scheduler.gate.locality.owns id = true := by
  obtain ⟨listener, hlistening⟩ := haligned.listening
  obtain ⟨-, rfl, -⟩ := (haligned.installing installation hinstalling).cancelling kept hcancelling
  obtain ⟨locality, hgate, hpartitioner, hgates⟩ := haligned.gate
  rw [stage_of_installing hlistening hinstalling, Installation.stage_narrowing hcancelling] at hgates
  have hboth : node.listener.partitioner.segmentOf id ∈
      (installation.transition.new.primarySegments node.localNode).inter
        (installation.transition.old.primarySegments node.localNode) :=
    SegmentSet.contains_eq_true.mp hkept
  have hmem : node.listener.partitioner.segmentOf id ∈ locality.segments := by
    rcases hgates with hold | hnarrow
    · exact hold ▸ (SegmentSet.mem_inter.mp hboth).2
    · exact hnarrow ▸ hboth
  rw [hgate]
  rw [← hpartitioner] at hmem
  exact SegmentSet.contains_eq_true.mpr hmem

omit [DecidableEq K] in
theorem Aligned.not_kept (haligned : node.Aligned) {installation : Installation K}
    {kept : SegmentLocality K} (hinstalling : node.installation = some installation)
    (hcancelling : installation.cancelling = some kept)
    (hforeign : node.scheduler.gate.locality.owns id = false) : kept.owns id = false := by
  apply eq_false_of_ne_true
  intro hkept
  have howns := haligned.owns_of_kept hinstalling hcancelling hkept
  exact Bool.false_ne_true (hforeign.symm.trans howns)

omit [DecidableEq K] in
/-- Within a cancellation pass the scheduler accepts the locality that is kept. -/
theorem Aligned.install_kept (haligned : node.Aligned) {installation : Installation K}
    {kept : SegmentLocality K} (hinstalling : node.installation = some installation)
    (hcancelling : installation.cancelling = some kept) :
    node.scheduler.install kept.topology (.segments kept) =
      (true, { node.scheduler with gate := ⟨some kept.topology, .segments kept⟩ }) := by
  obtain ⟨listener, hlistening⟩ := haligned.listening
  obtain ⟨-, rfl, -⟩ := (haligned.installing installation hinstalling).cancelling kept hcancelling
  apply haligned.install_eq
  rw [stage_of_installing hlistening hinstalling, Installation.stage_narrowing hcancelling]
  rfl

/-- An installation that supersedes nothing spares every entry: what it takes back is owned no
more. -/
theorem Tidy.spares_installStep (htidy : node.Tidy horizon) {action : NodeAction K}
    {after : Node K} (hstep : node.InstallStep action after) (hnot : ¬ node.Supersedes action) :
    node.Spares after id := by
  have haligned := htidy.aligned
  cases hstep with
  | narrowed installation kept hinstalling hcancelling =>
      rw [haligned.install_kept hinstalling hcancelling]
      refine .of_scheduler Iff.rfl ?_ ?_ ?_
      · exact haligned.not_kept hinstalling hcancelling
      · exact Or.inl
      · exact fun harmed => harmed
  | swept installation kept hinstalling hcancelling =>
      rw [Scheduler.cancelUnowned, haligned.install_kept hinstalling hcancelling]
      refine .of_scheduler Iff.rfl ?_ ?_ ?_
      · exact haligned.not_kept hinstalling hcancelling
      · intro harmed
        cases hkept : kept.owns id with
        | false => exact Or.inr hkept
        | true =>
            left
            obtain ⟨arming, hmem, rfl⟩ := Scheduler.contains_eq_true.mp harmed
            refine Scheduler.contains_eq_true.mpr
              ⟨arming, Scheduler.mem_armed_disarm.mpr ⟨hmem, ?_⟩, rfl⟩
            exact congrArg Bool.not hkept
      · intro harmed
        obtain ⟨arming, hmem, rfl⟩ := Scheduler.contains_eq_true.mp harmed
        exact Scheduler.contains_eq_true.mpr
          ⟨arming, (Scheduler.mem_armed_disarm.mp hmem).1, rfl⟩
  | lossBegun installation listener unheard kept lost hhears =>
      exact absurd ⟨rfl, installation, listener, unheard, _, hhears, by simp⟩ hnot
  | takenUp installation listener unheard old new gained handle hhears =>
      exact absurd ⟨rfl, installation, listener, unheard, _, hhears, by simp⟩ hnot
  | _ => exact .of_covers Iff.rfl rfl rfl

/-- A step that supersedes nothing spares every entry that is stored, unless it asks for it. -/
theorem Tidy.spares (htidy : node.Tidy horizon) {action : NodeAction K}
    (hadmits : node.Admits horizon action) (hstored : node.store.contains id = true)
    (hnot : ¬ node.Supersedes action) (hunasked : ∀ deadline, action ≠ .schedule id deadline) :
    node.Spares (node.act action) id := by
  have hcalm := htidy.calm
  cases action with
  | store other deadline => exact .of_covers Iff.rfl rfl rfl
  | schedule other deadline =>
      have hother : other ≠ id := by
        rintro rfl
        exact hunasked deadline rfl
      exact .of_covers Iff.rfl (Scheduler.gate_schedule _ _ _) (contains_schedule_other hother _)
  | advance elapsed =>
      obtain ⟨timers, h⟩ := Scheduler.advance_of_ahead fun arming hmem =>
        Nat.lt_of_le_of_lt hadmits (hcalm.armed arming hmem).2
      have hgate := congrArg Scheduler.gate h
      have harmed := congrArg (Scheduler.contains · id) h
      exact .of_covers Iff.rfl hgate harmed
  | unstore other => exact hadmits.elim
  | cancel other => exact hadmits.elim
  | failNext detail => exact hadmits.elim
  | beginInstall next =>
      rcases act_beginInstall node next with hsame | hstep
      · rw [hsame]
        exact .of_covers Iff.rfl rfl rfl
      · exact htidy.spares_installStep hstep hnot
  | narrowGate =>
      rcases act_narrowGate node with hsame | hstep
      · rw [hsame]
        exact .of_covers Iff.rfl rfl rfl
      · exact htidy.spares_installStep hstep hnot
  | advanceInstall =>
      rcases act_advanceInstall node with hsame | hstep
      · rw [hsame]
        exact .of_covers Iff.rfl rfl rfl
      · exact htidy.spares_installStep hstep hnot
  | register =>
      rw [act_register htidy.aligned.registered]
      exact .of_covers Iff.rfl rfl rfl
  | takeNext => exact .of_covers hcalm.covers_takeNext rfl rfl
  | noticeCancellation =>
      have hlive := Executor.live_noticeCancellation hcalm.orderly.isOpen
      exact .of_covers (Executor.covers_congr hlive) rfl rfl
  | passStep number =>
      simp only [Node.act]
      split
      · next hbegun => exact htidy.spares_stepWork hstored hbegun
      · exact .of_covers Iff.rfl rfl rfl
  | setPaused paused => exact .of_covers Iff.rfl rfl rfl

omit [DecidableEq K] in
/-- What a node hears next is determined. -/
theorem Hears.unique {first second : Installation K} {listener other : ListenerId}
    {unheard rest : List ListenerId} {change asked : OwnershipChange K}
    (hfirst : node.Hears first listener unheard change)
    (hsecond : node.Hears second other rest asked) : change = asked := by
  obtain rfl := Option.some.inj (hfirst.installing.symm.trans hsecond.installing)
  exact hfirst.change.symm.trans hsecond.change

/-- The next step of an installation is that the listener hears what comes next. -/
theorem Hears.act_eq {installation : Installation K} {listener : ListenerId}
    {unheard : List ListenerId} {change : OwnershipChange K}
    (hhears : node.Hears installation listener unheard change) :
    node.act .advanceInstall = node.hear installation listener unheard := by
  have hundone : installation.isDone = false := by simp [Installation.isDone, hhears.next]
  simp [Node.act, hhears.installing, hundone, advanceInstall, hhears.resting, hhears.next]

theorem Hears.act_losing {installation : Installation K} {listener : ListenerId}
    {unheard : List ListenerId} {kept : SegmentLocality K} {lost : SegmentSet}
    (hhears : node.Hears installation listener unheard (.losing kept lost)) :
    (node.act .advanceInstall).scheduler = node.scheduler ∧
      (node.act .advanceInstall).listener.executor =
        node.listener.executor.cancelCurrent.2 := by
  rw [hhears.act_eq]
  simp [hear, hhears.listener, hhears.change, Listener.beginLoss]

theorem Hears.act_gained {installation : Installation K} {listener : ListenerId}
    {unheard : List ListenerId} {old new : SegmentLocality K} {gained : SegmentSet}
    (hhears : node.Hears installation listener unheard (.gained old new gained)) :
    (node.act .advanceInstall).scheduler =
        (node.scheduler.install new.topology (.segments new)).2 ∧
      (node.act .advanceInstall).listener.executor =
        (node.listener.executor.submit (.waiting old new)).2 := by
  rw [hhears.act_eq]
  simp [hear, hhears.listener, hhears.change, Listener.takeUp, tasks]

omit [DecidableEq K] in
/-- The segments that are gained are those of the pass that is submitted. -/
theorem Hears.owns_gained {installation : Installation K} {listener : ListenerId}
    {unheard : List ListenerId} {old new : SegmentLocality K} {gained : SegmentSet}
    (hhears : node.Hears installation listener unheard (.gained old new gained))
    (hinstalling : node.Installing installation) (id : K) :
    (new.gainedSince old).owns id = true ↔ node.listener.partitioner.segmentOf id ∈ gained := by
  obtain ⟨-, -, hnew, rfl⟩ := hhears.of_gained hinstalling
  have hpartitioner : node.listener.partitioner = (new.gainedSince old).partitioner := by
    rw [hnew]
    rfl
  rw [hpartitioner]
  exact SegmentSet.contains_eq_true

omit [DecidableEq K] in
/-- What a node takes up comes from what its gate owns already and from what it gains. -/
theorem Aligned.owns_of_new (haligned : node.Aligned) {installation : Installation K}
    {listener : ListenerId} {unheard : List ListenerId} {old new : SegmentLocality K}
    {gained : SegmentSet}
    (hhears : node.Hears installation listener unheard (.gained old new gained))
    (howns : new.owns id = true) : node.scheduler.gate.locality.owns id = true ∨
      node.listener.partitioner.segmentOf id ∈ gained := by
  obtain ⟨registered, hlistening⟩ := haligned.listening
  have hbelongs := haligned.installing installation hhears.installing
  obtain ⟨hphase, rfl, rfl, rfl⟩ := hhears.of_gained hbelongs
  obtain ⟨locality, hgate, hpartitioner, hgates⟩ := haligned.gate
  rw [hhears.stage_of_post hlistening hbelongs hphase] at hgates
  have hnew : node.listener.partitioner.segmentOf id ∈
      installation.transition.new.primarySegments node.localNode :=
    SegmentSet.contains_eq_true.mp howns
  by_cases hold : node.listener.partitioner.segmentOf id ∈
      installation.transition.old.primarySegments node.localNode
  · left
    have hmem : node.listener.partitioner.segmentOf id ∈ locality.segments := by
      rw [show locality.segments = _ from hgates]
      exact SegmentSet.mem_inter.mpr ⟨hnew, hold⟩
    rw [← hpartitioner] at hmem
    rw [hgate]
    exact SegmentSet.contains_eq_true.mpr hmem
  · right
    exact SegmentSet.mem_diff.mpr ⟨hnew, hold⟩

omit [DecidableEq K] in
/-- The scheduler accepts the locality that a node takes up. -/
theorem Aligned.install_new (haligned : node.Aligned) {installation : Installation K}
    {listener : ListenerId} {unheard : List ListenerId} {old new : SegmentLocality K}
    {gained : SegmentSet}
    (hhears : node.Hears installation listener unheard (.gained old new gained)) :
    node.scheduler.install new.topology (.segments new) =
      (true, { node.scheduler with gate := ⟨some new.topology, .segments new⟩ }) := by
  obtain ⟨registered, hlistening⟩ := haligned.listening
  have hbelongs := haligned.installing installation hhears.installing
  obtain ⟨hphase, -, rfl, -⟩ := hhears.of_gained hbelongs
  apply haligned.install_eq
  rw [hhears.stage_of_post hlistening hbelongs hphase]
  rfl

/-- A step that supersedes a pass arms nothing and takes nothing back.  What is covered afterwards is
what it takes up, and what is in hand. -/
theorem Tidy.of_supersedes (htidy : node.Tidy horizon) {action : NodeAction K}
    (hsupersedes : node.Supersedes action) (id : K) :
    (node.act action).scheduler.contains id = node.scheduler.contains id ∧
      ((node.act action).listener.executor.Covers id ↔
        node.TakesUp action id ∨ node.listener.executor.Holds id) ∧
      (node.scheduler.gate.locality.owns id = false →
        (node.act action).scheduler.gate.locality.owns id = false ∨ node.TakesUp action id) := by
  obtain ⟨rfl, installation, listener, unheard, change, hhears, hchange⟩ := hsupersedes
  have horderly := htidy.calm.orderly
  cases change with
  | unchanged => exact absurd rfl hchange
  | losing kept lost =>
      have hnot : ¬ node.TakesUp .advanceInstall id := by
        rintro ⟨-, other, _, _, old, new, gained, hgained, -⟩
        cases hhears.unique hgained
      obtain ⟨hscheduler, hexecutor⟩ := hhears.act_losing
      rw [hscheduler, hexecutor, horderly.covers_cancelCurrent]
      simp only [hnot, false_or, or_false, true_and]
      exact fun hforeign => hforeign
  | gained old new gained =>
      have hbelongs := htidy.aligned.installing installation hhears.installing
      have htakes : node.TakesUp .advanceInstall id ↔
          node.listener.partitioner.segmentOf id ∈ gained := by
        constructor
        · rintro ⟨-, other, _, _, _, _, _, hgained, hmem⟩
          obtain ⟨-, -, rfl⟩ := OwnershipChange.gained.inj (hhears.unique hgained)
          exact hmem
        · exact fun hmem => ⟨rfl, installation, listener, unheard, old, new, gained, hhears, hmem⟩
      obtain ⟨hscheduler, hexecutor⟩ := hhears.act_gained
      rw [hscheduler, hexecutor, htidy.aligned.install_new hhears, horderly.covers_submit,
        hhears.owns_gained hbelongs, htakes]
      refine ⟨rfl, Iff.rfl, fun hforeign => ?_⟩
      cases howns : new.owns id with
      | false => exact Or.inl howns
      | true =>
          rcases htidy.aligned.owns_of_new hhears howns with hbefore | hgained
          · exact absurd (hforeign.symm.trans hbefore) Bool.false_ne_true
          · exact Or.inr hgained

omit [DecidableEq K] in
/-- A step that takes up a segment supersedes the pass under way. -/
theorem TakesUp.supersedes {action : NodeAction K} (htakes : node.TakesUp action id) :
    node.Supersedes action := by
  obtain ⟨rfl, installation, listener, unheard, old, new, gained, hhears, -⟩ := htakes
  exact ⟨rfl, installation, listener, unheard, _, hhears, by simp⟩

/-- A node minds what it was asked to arm or has taken up. -/
theorem Tidy.minds_of_restores (htidy : node.Tidy horizon) {action : NodeAction K}
    (hrestores : node.Restores action id) : (node.act action).Minds id := by
  rcases hrestores with ⟨deadline, rfl⟩ | htakes
  · cases howns : node.scheduler.gate.locality.owns id with
    | false =>
        have hforeign : (node.act (.schedule id deadline)).scheduler.gate.locality.owns id =
            false := by
          simpa only [Node.act, Scheduler.gate_schedule] using howns
        exact Or.inr (Or.inl hforeign)
    | true => exact Or.inl (Scheduler.contains_schedule deadline htidy.calm.isOpen howns)
  · obtain ⟨-, hcovers, -⟩ := htidy.of_supersedes htakes.supersedes id
    exact Or.inr (Or.inr (hcovers.mpr (Or.inl htakes)))

/-- A node still minds an entry after a step, unless the step dropped it. -/
theorem Tidy.minds_act (htidy : node.Tidy horizon) {action : NodeAction K}
    (hadmits : node.Admits horizon action) (hstored : node.store.contains id = true)
    (hminds : node.Minds id) : (node.act action).Minds id ∨ node.Drops action id := by
  by_cases hrestores : node.Restores action id
  · exact Or.inl (htidy.minds_of_restores hrestores)
  · have hunasked : ∀ deadline, action ≠ .schedule id deadline :=
      fun deadline hasked => hrestores (Or.inl ⟨deadline, hasked⟩)
    have hnot : ¬ node.TakesUp action id := fun htakes => hrestores (Or.inr htakes)
    by_cases hsupersedes : node.Supersedes action
    · obtain ⟨harmed, hcovers, hgate⟩ := htidy.of_supersedes hsupersedes id
      rcases hminds with hcontained | hforeign | hcovered
      · exact Or.inl (Or.inl (harmed.trans hcontained))
      · exact Or.inl (Or.inr (Or.inl ((hgate hforeign).resolve_right hnot)))
      · by_cases hholds : node.listener.executor.Holds id
        · exact Or.inl (Or.inr (Or.inr (hcovers.mpr (Or.inr hholds))))
        · cases hcontained : node.scheduler.contains id with
          | true => exact Or.inl (Or.inl (harmed.trans hcontained))
          | false => exact Or.inr ⟨hsupersedes, hstored, hcovered, hcontained, hholds, hnot⟩
    · exact Or.inl ((htidy.spares hadmits hstored hsupersedes hunasked).minds hminds)

/-- An entry that a step drops is neglected. -/
theorem Tidy.neglects_of_drops (htidy : node.Tidy horizon) {action : NodeAction K}
    (hdrops : node.Drops action id) : (node.act action).Neglects id := by
  obtain ⟨harmed, hcovers, -⟩ := htidy.of_supersedes hdrops.supersedes id
  refine ⟨harmed.trans hdrops.unarmed, fun hcovered => ?_⟩
  rcases hcovers.mp hcovered with htakes | hheld
  · exact hdrops.untaken htakes
  · exact hdrops.unheld hheld

/-- A neglected entry stays neglected until a step restores it. -/
theorem Tidy.neglects_act (htidy : node.Tidy horizon) {action : NodeAction K}
    (hadmits : node.Admits horizon action) (hstored : node.store.contains id = true)
    (hnot : ¬ node.Restores action id) (hneglects : node.Neglects id) :
    (node.act action).Neglects id := by
  have hunasked : ∀ deadline, action ≠ .schedule id deadline :=
    fun deadline hasked => hnot (Or.inl ⟨deadline, hasked⟩)
  by_cases hsupersedes : node.Supersedes action
  · obtain ⟨harmed, hcovers, -⟩ := htidy.of_supersedes hsupersedes id
    refine ⟨harmed.trans hneglects.1, fun hcovered => ?_⟩
    rcases hcovers.mp hcovered with htakes | hheld
    · exact hnot (Or.inr htakes)
    · exact hneglects.2 (Executor.covers_of_holds hheld)
  · exact (htidy.spares hadmits hstored hsupersedes hunasked).neglects hneglects

end Node

end Custody
