/-
# A node that nobody disturbs

Nothing is removed or cancelled, no enumeration fails, only what is stored is asked to be armed, and
no deadline comes.  While this is so, everything that a pass may come across is stored and lies
ahead, and an entry loses its arming by a cancellation pass only.
-/

import Custody.Proofs.Executor.Orderly
import Custody.Proofs.Node.Ownership
import Custody.Proofs.Scheduler.Coverage

namespace Custody

variable {K : Type} [DecidableEq K]

/-- Executor, scheduler and store of a node that nobody disturbs. -/
structure Calm (horizon : Instant) (executor : Executor (SchedulingPass K))
    (scheduler : Scheduler K) (store : Store K) : Prop where
  orderly : executor.Orderly
  /-- The work of a pass begins only when the worker has taken it. -/
  queued : ∀ work ∈ executor.queue.map (·.work), ∃ old new, work = .waiting old new
  fits : ∀ pass ∈ executor.live, pass.work.Fits store horizon
  isOpen : scheduler.closed = false
  armed : ∀ arming ∈ scheduler.armed,
    store.contains arming.id = true ∧ horizon < arming.deadline
  unfailing : store.failure = none
  stored : ∀ entry ∈ store.entries, horizon < entry.deadline

namespace Calm

variable {horizon : Instant} {executor : Executor (SchedulingPass K)} {scheduler : Scheduler K}
  {store : Store K}

theorem withExecutor {after : Executor (SchedulingPass K)}
    (hcalm : Calm horizon executor scheduler store) (horderly : after.Orderly)
    (hqueue : ∀ work ∈ after.queue.map (·.work),
      work ∈ executor.queue.map (·.work) ∨ ∃ old new, work = .waiting old new)
    (hlive : ∀ pass ∈ after.live,
      pass.work ∈ executor.live.map (·.work) ∨ pass.work.Fits store horizon) :
    Calm horizon after scheduler store := by
  refine { hcalm with orderly := horderly, queued := fun work hmem => ?_, fits := fun pass hmem => ?_ }
  · rcases hqueue work hmem with hold | hwaiting
    · exact hcalm.queued work hold
    · exact hwaiting
  · rcases hlive pass hmem with hold | hfits
    · obtain ⟨other, hother, hsame⟩ := List.mem_map.mp hold
      rw [← hsame]
      exact hcalm.fits other hother
    · exact hfits

theorem withScheduler {after : Scheduler K} (hcalm : Calm horizon executor scheduler store)
    (hclosed : after.closed = scheduler.closed)
    (harmed : ∀ arming ∈ after.armed, arming ∈ scheduler.armed ∨
      store.contains arming.id = true ∧ horizon < arming.deadline) :
    Calm horizon executor after store := by
  refine { hcalm with isOpen := hclosed.trans hcalm.isOpen, armed := fun arming hmem => ?_ }
  rcases harmed arming hmem with hold | hnew
  · exact hcalm.armed arming hold
  · exact hnew

theorem withStore {after : Store K} (hcalm : Calm horizon executor scheduler store)
    (hmore : ∀ id, store.contains id = true → after.contains id = true)
    (hfailure : after.failure = store.failure)
    (hentries : ∀ entry ∈ after.entries, entry ∈ store.entries ∨ horizon < entry.deadline) :
    Calm horizon executor scheduler after := by
  refine { hcalm with
    fits := fun pass hmem => (hcalm.fits pass hmem).of_store hmore
    armed := fun arming hmem => ?_
    unfailing := hfailure.trans hcalm.unfailing
    stored := fun entry hmem => ?_ }
  · obtain ⟨hstored, hahead⟩ := hcalm.armed arming hmem
    exact ⟨hmore _ hstored, hahead⟩
  · rcases hentries entry hmem with hold | hnew
    · exact hcalm.stored entry hold
    · exact hnew

theorem insert (hcalm : Calm horizon executor scheduler store) (id : K) {deadline : Instant}
    (hahead : horizon < deadline) : Calm horizon executor scheduler (store.insert id deadline) := by
  refine hcalm.withStore (fun other hstored => ?_) rfl fun entry hmem => ?_
  · exact (Store.contains_insert deadline).mpr (Or.inr hstored)
  · rcases List.mem_append.mp hmem with hold | hnew
    · exact Or.inl (List.mem_filter.mp hold).1
    · obtain rfl := List.mem_singleton.mp hnew
      exact Or.inr hahead

theorem schedule (hcalm : Calm horizon executor scheduler store) {id : K} {deadline : Instant}
    (hstored : store.contains id = true) (hahead : horizon < deadline) :
    Calm horizon executor (scheduler.schedule id deadline).2 store := by
  refine hcalm.withScheduler (Scheduler.closed_schedule scheduler id deadline) fun arming hmem => ?_
  rcases Scheduler.mem_armed_schedule hmem with hold | ⟨rfl, -⟩
  · exact Or.inl hold
  · exact Or.inr ⟨hstored, hahead⟩

theorem install (hcalm : Calm horizon executor scheduler store) (topology : TopologyId)
    (locality : Locality K) :
    Calm horizon executor (scheduler.install topology locality).2 store := by
  unfold Scheduler.install
  split
  · exact hcalm
  · exact hcalm.withScheduler rfl fun arming hmem => Or.inl hmem

theorem cancelUnowned (hcalm : Calm horizon executor scheduler store) (topology : TopologyId)
    (locality : Locality K) :
    Calm horizon executor (scheduler.cancelUnowned topology locality).2 store := by
  have hinstalled := hcalm.install topology locality
  unfold Scheduler.cancelUnowned
  split
  · next heq =>
      rw [heq] at hinstalled
      exact hinstalled
  · next heq =>
      rw [heq] at hinstalled
      exact hinstalled.withScheduler rfl fun arming hmem =>
        Or.inl (Scheduler.mem_armed_disarm.mp hmem).1

theorem advance (hcalm : Calm horizon executor scheduler store) {elapsed : Nat}
    (hbefore : scheduler.now + elapsed ≤ horizon) :
    Calm horizon executor (scheduler.advance elapsed) store := by
  obtain ⟨timers, h⟩ := Scheduler.advance_of_ahead fun arming hmem =>
    Nat.lt_of_le_of_lt hbefore (hcalm.armed arming hmem).2
  rw [h]
  exact hcalm.withScheduler rfl fun arming hmem => Or.inl hmem

theorem takeNext (hcalm : Calm horizon executor scheduler store) :
    Calm horizon executor.takeNext scheduler store := by
  refine hcalm.withExecutor hcalm.orderly.takeNext (fun work hmem => Or.inl ?_) fun pass hmem =>
    Or.inl (List.mem_map_of_mem ?_)
  · exact List.map_subset _ executor.queue_takeNext_subset hmem
  · rcases executor.live_takeNext with hsame | ⟨lost, -, -, hlost⟩
    · exact hsame ▸ hmem
    · exact hlost ▸ List.mem_cons_of_mem _ hmem

theorem noticeCancellation (hcalm : Calm horizon executor scheduler store) :
    Calm horizon executor.noticeCancellation scheduler store := by
  have hopen := hcalm.orderly.isOpen
  refine hcalm.withExecutor hcalm.orderly.noticeCancellation (fun work hmem => Or.inl ?_)
    fun pass hmem => Or.inl (List.mem_map_of_mem ?_)
  · exact Executor.queue_noticeCancellation hopen ▸ hmem
  · exact (Executor.live_noticeCancellation hopen).subset hmem

theorem setWork (hcalm : Calm horizon executor scheduler store) {id : PassId}
    {pass : Pass (SchedulingPass K)} (hbegun : executor.begun? id = some pass)
    {work : SchedulingPass K} (hfits : work.Fits store horizon) :
    Calm horizon (executor.setWork pass.id work) scheduler store := by
  obtain ⟨hpass, -, hqueue⟩ := hcalm.orderly.of_begun hbegun
  refine hcalm.withExecutor (hcalm.orderly.setWork pass.id work) (fun other hmem => Or.inl ?_)
    fun other hmem => ?_
  · exact Executor.queue_setWork hqueue work ▸ hmem
  · rcases (hcalm.orderly.mem_live_setWork hpass work).mp hmem with ⟨hold, -⟩ | rfl
    · exact Or.inl (List.mem_map_of_mem hold)
    · exact Or.inr hfits

theorem workReturned (hcalm : Calm horizon executor scheduler store) {id : PassId}
    {pass : Pass (SchedulingPass K)} (hbegun : executor.begun? id = some pass)
    (result : Except Error Report) :
    Calm horizon (executor.workReturned pass.id result) scheduler store := by
  obtain ⟨-, -, hqueue⟩ := hcalm.orderly.of_begun hbegun
  refine hcalm.withExecutor (hcalm.orderly.workReturned hqueue result) (fun work hmem => Or.inl ?_)
    fun other hmem => Or.inl (List.mem_map_of_mem ?_)
  · exact hcalm.orderly.queue_workReturned pass.id result ▸ hmem
  · rw [hcalm.orderly.live_workReturned hqueue] at hmem
    exact (List.mem_filter.mp hmem).1

theorem cancelCurrent (hcalm : Calm horizon executor scheduler store) :
    Calm horizon executor.cancelCurrent.2 scheduler store := by
  refine hcalm.withExecutor hcalm.orderly.cancelCurrent (fun work hmem => Or.inl ?_)
    fun pass hmem => Or.inl ?_
  · exact executor.queue_cancelCurrent ▸ hmem
  · rw [hcalm.orderly.live_cancelCurrent] at hmem
    obtain ⟨before, hbefore, rfl⟩ := List.mem_map.mp hmem
    exact List.mem_map.mpr ⟨before, hbefore, rfl⟩

theorem submit (hcalm : Calm horizon executor scheduler store) (old new : SegmentLocality K) :
    Calm horizon (executor.submit (.waiting old new)).2 scheduler store := by
  refine hcalm.withExecutor (hcalm.orderly.submit _) (fun work hmem => ?_) fun pass hmem => ?_
  · rw [hcalm.orderly.queue_submit] at hmem
    rcases List.mem_append.mp hmem with hold | hnew
    · exact Or.inl hold
    · exact Or.inr ⟨old, new, List.mem_singleton.mp hnew⟩
  · rcases List.mem_cons.mp ((hcalm.orderly.live_submit _).subset hmem) with rfl | hold
    · exact Or.inr trivial
    · obtain ⟨before, hbefore, rfl⟩ := List.mem_map.mp hold
      exact Or.inl (List.mem_map.mpr ⟨before, hbefore, rfl⟩)

end Calm

namespace Node

/-- Whether a step does not disturb a node: nothing is removed, cancelled or made to fail, only what is
stored is asked to be armed, and the clock stays before every deadline. -/
def Admits (node : Node K) (horizon : Instant) : NodeAction K → Prop
  | .store _ deadline => horizon < deadline
  | .schedule id deadline => node.store.contains id = true ∧ horizon < deadline
  | .advance elapsed => node.scheduler.now + elapsed ≤ horizon
  | .unstore _ | .cancel _ | .failNext _ => False
  | _ => True

/-- A registered node that nobody has disturbed. -/
structure Tidy (node : Node K) (horizon : Instant) : Prop where
  aligned : node.Aligned
  calm : Calm horizon node.listener.executor node.scheduler node.store

variable {node : Node K} {horizon : Instant}

/-- The parts of a node stay calm when the work of a pass goes on. -/
theorem Tidy.stepWork (htidy : node.Tidy horizon) {id : PassId} {pass : Pass (SchedulingPass K)}
    (hbegun : node.listener.executor.begun? id = some pass) :
    Calm horizon (node.stepWork pass).listener.executor (node.stepWork pass).scheduler
      (node.stepWork pass).store := by
  have hcalm := htidy.calm
  have hfits := hcalm.fits pass (hcalm.orderly.of_begun hbegun).1
  cases hwork : pass.work with
  | waiting old new =>
      have hstarted := hcalm.setWork hbegun (SchedulingPass.fits_start old new)
      simp only [Node.stepWork, hwork]
      split
      · exact hstarted.withStore (fun _ hstored => hstored) rfl fun _ hmem => Or.inl hmem
      · exact hstarted
  | asking gained =>
      have hanswered := hcalm.setWork hbegun
        (SchedulingPass.fits_answer hcalm.unfailing hcalm.stored gained)
      simp only [Node.stepWork, hwork]
      split
      · exact hcalm
      · rw [SchedulingPass.answer_eq hcalm.unfailing] at hanswered ⊢
        exact hanswered
  | reading gained rest report =>
      rw [hwork] at hfits
      simp only [Node.stepWork, hwork]
      exact hcalm.setWork hbegun (SchedulingPass.fits_look hfits)
  | holding gained candidate rest report =>
      rw [hwork] at hfits
      obtain ⟨stored, hok, -, hstored, hahead⟩ := hfits _ List.mem_cons_self
      obtain rfl := Except.ok.inj hok
      have hrest : (SchedulingPass.reading gained rest
          (node.scheduler.place gained candidate report).1).Fits node.store horizon :=
        fun item hmem => hfits item (List.mem_cons_of_mem _ hmem)
      have hread := hcalm.setWork hbegun hrest
      simp only [Node.stepWork, hwork, SchedulingPass.offer, withExecutor]
      rcases Scheduler.place_cases node.scheduler gained candidate report with ⟨-, h⟩ | ⟨-, h⟩
      · rw [h]
        exact hread
      · rw [h]
        exact hread.schedule hstored hahead
  | returned result =>
      simp only [Node.stepWork, hwork]
      exact hcalm.workReturned hbegun result

/-- The parts of a node stay calm when an installation advances. -/
theorem Tidy.installStep (htidy : node.Tidy horizon) {action : NodeAction K} {after : Node K}
    (hstep : node.InstallStep action after) :
    Calm horizon after.listener.executor after.scheduler after.store := by
  have hcalm := htidy.calm
  cases hstep with
  | narrowed installation kept hinstalling hcancelling => exact hcalm.install _ _
  | swept installation kept hinstalling hcancelling => exact hcalm.cancelUnowned _ _
  | lossBegun installation id unheard kept lost hhears => exact hcalm.cancelCurrent
  | takenUp installation id unheard old new gained handle hhears =>
      exact (hcalm.submit old new).install _ _
  | _ => exact hcalm

/-- A step that does not disturb a node leaves it undisturbed. -/
theorem Tidy.act (htidy : node.Tidy horizon) {action : NodeAction K}
    (hadmits : node.Admits horizon action) : (node.act action).Tidy horizon := by
  refine ⟨htidy.aligned.act action, ?_⟩
  have hcalm := htidy.calm
  cases action with
  | store id deadline => exact hcalm.insert id hadmits
  | schedule id deadline => exact hcalm.schedule hadmits.1 hadmits.2
  | advance elapsed => exact hcalm.advance hadmits
  | unstore id => exact hadmits.elim
  | cancel id => exact hadmits.elim
  | failNext detail => exact hadmits.elim
  | beginInstall next =>
      rcases act_beginInstall node next with hsame | hstep
      · exact hsame.symm ▸ hcalm
      · exact htidy.installStep hstep
  | narrowGate =>
      rcases act_narrowGate node with hsame | hstep
      · exact hsame.symm ▸ hcalm
      · exact htidy.installStep hstep
  | advanceInstall =>
      rcases act_advanceInstall node with hsame | hstep
      · exact hsame.symm ▸ hcalm
      · exact htidy.installStep hstep
  | register => exact (act_register htidy.aligned.registered).symm ▸ hcalm
  | takeNext => exact hcalm.takeNext
  | noticeCancellation => exact hcalm.noticeCancellation
  | passStep id =>
      simp only [Node.act]
      split
      · next hbegun => exact htidy.stepWork hbegun
      · exact hcalm
  | setPaused paused =>
      exact hcalm.withStore (fun _ hstored => hstored) rfl fun _ hmem => Or.inl hmem

end Node

end Custody
