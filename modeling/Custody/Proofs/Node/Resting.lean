/-
# Coming to rest by single steps

A node at rest has been led there by single steps: every pass that has begun goes on as far as it can,
the worker attends to the passes in turn, and the timers that are due fire.  This is done with nothing
in between, but each part of it is a step that may also be taken alone, so that what holds along every
run holds of a node that comes to rest.
-/

import Custody.Proofs.Executor.Begun
import Custody.Proofs.Node.Ownership

namespace Custody

namespace Node

variable {K : Type} [DecidableEq K]

/-- Whether some run leads from one node to another. -/
def Reaches (node after : Node K) : Prop := ∃ actions, node.run actions = after

namespace Reaches

variable {first second third : Node K}

theorem refl (node : Node K) : node.Reaches node := ⟨[], rfl⟩

theorem act (node : Node K) (action : NodeAction K) : node.Reaches (node.act action) :=
  ⟨[action], rfl⟩

theorem trans (hfirst : first.Reaches second) (hsecond : second.Reaches third) :
    first.Reaches third := by
  obtain ⟨before, rfl⟩ := hfirst
  obtain ⟨later, rfl⟩ := hsecond
  exact ⟨before ++ later, by simp [run]⟩

end Reaches

/-- A node with another executor, scheduler and store. -/
def resume (node : Node K) (executor : Executor (SchedulingPass K))
    (world : Scheduler K × Store K) : Node K :=
  { node.withExecutor executor with scheduler := world.1, store := world.2 }

variable (node : Node K) {executor : Executor (SchedulingPass K)}
  {pass : Pass (SchedulingPass K)}

/-- The next step of a pass depends on how far it has come. -/
theorem reaches_stepWork (horderly : executor.Orderly) (hbegun : pass ∈ executor.begun)
    (work : SchedulingPass K) (world : Scheduler K × Store K) :
    (node.resume (executor.setWork pass.id work) world).Reaches
      ((node.resume (executor.setWork pass.id work) world).stepWork { pass with work := work }) := by
  have hfound : (executor.setWork pass.id work).begun? pass.id = some { pass with work := work } :=
    (horderly.setWork pass.id work).begun?_eq_some.mpr (Executor.mem_begun_setWork hbegun work)
  have hexecutor : (node.resume (executor.setWork pass.id work) world).listener.executor =
      executor.setWork pass.id work := rfl
  refine ⟨[.passStep pass.id], ?_⟩
  simp only [run, List.foldl_cons, List.foldl_nil, act]
  rw [hexecutor, hfound]

/-- A pass that has returned is gone after its next step. -/
theorem reaches_returned (horderly : executor.Orderly) (hbegun : pass ∈ executor.begun)
    (result : Except Error Report) (world : Scheduler K × Store K) :
    (node.resume (executor.setWork pass.id (.returned result)) world).Reaches
      (node.resume (executor.workReturned pass.id result) world) := by
  have hgone := horderly.workReturned_setWork (horderly.queue_apart hbegun) (.returned result) result
  rw [← hgone]
  exact node.reaches_stepWork horderly hbegun (.returned result) world

/-- A pass looks whether it was cancelled and takes the next candidate in hand. -/
theorem reaches_look (horderly : executor.Orderly) (hbegun : pass ∈ executor.begun)
    (gained : SegmentLocality K) (rest : List (Item K)) (report : Report)
    (world : Scheduler K × Store K) :
    (node.resume (executor.setWork pass.id (.reading gained rest report)) world).Reaches
      (node.resume
        (executor.setWork pass.id ((SchedulingPass.reading gained rest report).look pass.cancelled))
        world) := by
  have hset := executor.setWork_setWork pass.id (.reading gained rest report)
    ((SchedulingPass.reading gained rest report).look pass.cancelled)
  rw [← hset]
  exact node.reaches_stepWork horderly hbegun (.reading gained rest report) world

/-- A pass offers the candidate in hand. -/
theorem reaches_offer (horderly : executor.Orderly) (hbegun : pass ∈ executor.begun)
    (gained : SegmentLocality K) (candidate : Candidate K) (rest : List (Item K)) (report : Report)
    (scheduler : Scheduler K) (store : Store K) :
    (node.resume (executor.setWork pass.id (.holding gained candidate rest report))
        (scheduler, store)).Reaches
      (node.resume
        (executor.setWork pass.id
          (.reading gained rest (scheduler.place gained candidate report).1))
        ((scheduler.place gained candidate report).2, store)) := by
  have hset := executor.setWork_setWork pass.id (.holding gained candidate rest report)
    (.reading gained rest (scheduler.place gained candidate report).1)
  rw [← hset]
  exact node.reaches_stepWork horderly hbegun (.holding gained candidate rest report)
    (scheduler, store)

/-- A pass goes through the rest of what the store listed. -/
theorem reaches_placeAll (horderly : executor.Orderly) (hbegun : pass ∈ executor.begun)
    (gained : SegmentLocality K) (rest : List (Item K)) (report : Report)
    (scheduler : Scheduler K) (store : Store K) :
    (node.resume (executor.setWork pass.id (.reading gained rest report)) (scheduler, store)).Reaches
      (node.resume
        (executor.workReturned pass.id (scheduler.placeAll gained rest
          (if pass.cancelled then some 0 else none) report).1)
        ((scheduler.placeAll gained rest (if pass.cancelled then some 0 else none) report).2,
          store)) := by
  induction rest generalizing report scheduler with
  | nil =>
      have hlook := node.reaches_look horderly hbegun gained [] report (scheduler, store)
      exact hlook.trans (node.reaches_returned horderly hbegun (.ok report) (scheduler, store))
  | cons item rest ih =>
      have hlook := node.reaches_look horderly hbegun gained (item :: rest) report
        (scheduler, store)
      refine hlook.trans ?_
      cases hcancelled : pass.cancelled with
      | true =>
          exact node.reaches_returned horderly hbegun (.ok { report with interrupted := true })
            (scheduler, store)
      | false =>
          rw [hcancelled] at ih
          cases item with
          | error failure => exact node.reaches_returned horderly hbegun (.error failure) (scheduler, store)
          | ok candidate =>
              have hoffer := node.reaches_offer horderly hbegun gained candidate rest report
                scheduler store
              exact hoffer.trans (ih _ _)

/-- The node after the work of a pass has gone on from some point as far as it can. -/
def resumed (node : Node K) (executor : Executor (SchedulingPass K))
    (pass : Pass (SchedulingPass K)) (work : SchedulingPass K) (world : Scheduler K × Store K) :
    Node K :=
  node.resume (executor.goOn goOn { pass with work := work } world).1
    (executor.goOn goOn { pass with work := work } world).2

theorem reaches_resumed_reading (horderly : executor.Orderly) (hbegun : pass ∈ executor.begun)
    (gained : SegmentLocality K) (rest : List (Item K)) (report : Report)
    (world : Scheduler K × Store K) :
    (node.resume (executor.setWork pass.id (.reading gained rest report)) world).Reaches
      (node.resumed executor pass (.reading gained rest report) world) :=
  node.reaches_placeAll horderly hbegun gained rest report world.1 world.2

theorem reaches_resumed_holding (horderly : executor.Orderly) (hbegun : pass ∈ executor.begun)
    (gained : SegmentLocality K) (candidate : Candidate K) (rest : List (Item K)) (report : Report)
    (world : Scheduler K × Store K) :
    (node.resume (executor.setWork pass.id (.holding gained candidate rest report)) world).Reaches
      (node.resumed executor pass (.holding gained candidate rest report) world) :=
  (node.reaches_offer horderly hbegun gained candidate rest report world.1 world.2).trans
    (node.reaches_placeAll horderly hbegun gained rest _ _ world.2)

theorem reaches_resumed_returned (horderly : executor.Orderly) (hbegun : pass ∈ executor.begun)
    (result : Except Error Report) (world : Scheduler K × Store K) :
    (node.resume (executor.setWork pass.id (.returned result)) world).Reaches
      (node.resumed executor pass (.returned result) world) :=
  node.reaches_returned horderly hbegun result world

/-- A pass waits for a store that is paused, and else goes through what the store lists. -/
theorem reaches_resumed_asking (horderly : executor.Orderly) (hbegun : pass ∈ executor.begun)
    (gained : SegmentLocality K) (world : Scheduler K × Store K) :
    (node.resume (executor.setWork pass.id (.asking gained)) world).Reaches
      (node.resumed executor pass (.asking gained) world) := by
  obtain ⟨scheduler, store⟩ := world
  cases hpaused : store.paused with
  | true =>
      have hsame : node.resumed executor pass (.asking gained) (scheduler, store) =
          node.resume (executor.setWork pass.id (.asking gained)) (scheduler, store) := by
        simp [resumed, Executor.goOn, goOn, SchedulingPass.start, SchedulingPass.finish, hpaused]
      rw [hsame]
      exact .refl _
  | false =>
      have hstep := node.reaches_stepWork horderly hbegun (.asking gained) (scheduler, store)
      obtain ⟨answered, later, hanswer⟩ : ∃ answered later, store.answer gained = (answered, later) :=
        ⟨_, _, rfl⟩
      have hnext : (node.resume (executor.setWork pass.id (.asking gained))
          (scheduler, store)).stepWork { pass with work := .asking gained } =
          node.resume (executor.setWork pass.id ((SchedulingPass.asking gained).answer answered))
            (scheduler, later) := by
        simp [stepWork, resume, withExecutor, hpaused, hanswer, Executor.setWork_setWork]
      rw [hnext] at hstep
      refine hstep.trans ?_
      cases answered with
      | error failure =>
          have hsame : node.resumed executor pass (.asking gained) (scheduler, store) =
              node.resumed executor pass (.returned (.error failure)) (scheduler, later) := by
            simp [resumed, Executor.goOn, goOn, SchedulingPass.start, SchedulingPass.answer,
              SchedulingPass.finish, hpaused, hanswer]
          rw [hsame]
          exact node.reaches_resumed_returned horderly hbegun (.error failure) (scheduler, later)
      | ok items =>
          have hsame : node.resumed executor pass (.asking gained) (scheduler, store) =
              node.resumed executor pass (.reading gained items {}) (scheduler, later) := by
            simp [resumed, Executor.goOn, goOn, SchedulingPass.start, SchedulingPass.answer,
              SchedulingPass.finish, hpaused, hanswer]
          rw [hsame]
          exact node.reaches_resumed_reading horderly hbegun gained items {} (scheduler, later)

theorem reaches_resumed_waiting (horderly : executor.Orderly) (hbegun : pass ∈ executor.begun)
    (old new : SegmentLocality K) (world : Scheduler K × Store K) :
    (node.resume (executor.setWork pass.id (.waiting old new)) world).Reaches
      (node.resumed executor pass (.waiting old new) world) := by
  obtain ⟨scheduler, store⟩ := world
  have hstep := node.reaches_stepWork horderly hbegun (.waiting old new) (scheduler, store)
  by_cases hnothing : (new.gainedSince old).segments.isEmpty = true
  · have hstart : (SchedulingPass.waiting old new).start = .returned (.ok {}) := by
      simp [SchedulingPass.start, hnothing]
    have hnext : (node.resume (executor.setWork pass.id (.waiting old new))
        (scheduler, store)).stepWork { pass with work := .waiting old new } =
        node.resume (executor.setWork pass.id (.returned (.ok {}))) (scheduler, store) := by
      simp [stepWork, resume, withExecutor, hstart, Executor.setWork_setWork]
    have hsame : node.resumed executor pass (.waiting old new) (scheduler, store) =
        node.resumed executor pass (.returned (.ok {})) (scheduler, store) := by
      simp [resumed, Executor.goOn, goOn, SchedulingPass.start, hnothing, SchedulingPass.finish]
    rw [hnext] at hstep
    rw [hsame]
    exact hstep.trans (node.reaches_resumed_returned horderly hbegun (.ok {}) (scheduler, store))
  · have hstart : (SchedulingPass.waiting old new).start = .asking (new.gainedSince old) := by
      simp [SchedulingPass.start, hnothing]
    have hnext : (node.resume (executor.setWork pass.id (.waiting old new))
        (scheduler, store)).stepWork { pass with work := .waiting old new } =
        node.resume (executor.setWork pass.id (.asking (new.gainedSince old)))
          (scheduler, store.beginEnumeration) := by
      simp [stepWork, resume, withExecutor, hstart, Executor.setWork_setWork]
    have hsame : node.resumed executor pass (.waiting old new) (scheduler, store) =
        node.resumed executor pass (.asking (new.gainedSince old))
          (scheduler, store.beginEnumeration) := by
      simp [resumed, Executor.goOn, goOn, SchedulingPass.start, hnothing]
    rw [hnext] at hstep
    rw [hsame]
    exact hstep.trans (node.reaches_resumed_asking horderly hbegun _ _)

/-- A pass that has begun goes on as far as it can by single steps. -/
theorem reaches_goOn (horderly : executor.Orderly) (hbegun : pass ∈ executor.begun)
    (world : Scheduler K × Store K) :
    (node.resume executor world).Reaches
      (node.resume (executor.goOn goOn pass world).1 (executor.goOn goOn pass world).2) := by
  have hself := horderly.setWork_self hbegun
  have hresumed : (node.resume (executor.setWork pass.id pass.work) world).Reaches
      (node.resumed executor pass pass.work world) := by
    cases hwork : pass.work with
    | waiting old new => exact node.reaches_resumed_waiting horderly hbegun old new world
    | asking gained => exact node.reaches_resumed_asking horderly hbegun gained world
    | reading gained rest report =>
        exact node.reaches_resumed_reading horderly hbegun gained rest report world
    | holding gained candidate rest report =>
        exact node.reaches_resumed_holding horderly hbegun gained candidate rest report world
    | returned result => exact node.reaches_resumed_returned horderly hbegun result world
  rw [hself] at hresumed
  exact hresumed

/-- An orderly executor is led on to another one by steps of its node. -/
structure Settles (node : Node K) (executor : Executor (SchedulingPass K))
    (world : Scheduler K × Store K)
    (after : Executor (SchedulingPass K) × Scheduler K × Store K) : Prop where
  reaches : (node.resume executor world).Reaches (node.resume after.1 after.2)
  orderly : after.1.Orderly

theorem Settles.trans {node : Node K} {world : Scheduler K × Store K}
    {middle last : Executor (SchedulingPass K) × Scheduler K × Store K}
    (hfirst : node.Settles executor world middle) (hsecond : node.Settles middle.1 middle.2 last) :
    node.Settles executor world last :=
  ⟨hfirst.reaches.trans hsecond.reaches, hsecond.orderly⟩

theorem settles_goOn (horderly : executor.Orderly) (hbegun : pass ∈ executor.begun)
    (world : Scheduler K × Store K) :
    node.Settles executor world (executor.goOn goOn pass world) :=
  ⟨node.reaches_goOn horderly hbegun world, horderly.goOn hbegun goOn world⟩

/-- Passes that have begun go on one after the other. -/
theorem settles_foldl (passes : List (Pass (SchedulingPass K))) (horderly : executor.Orderly)
    (hbegun : ∀ pass ∈ passes, pass ∈ executor.begun) (hdistinct : (passes.map (·.id)).Nodup)
    (world : Scheduler K × Store K) :
    node.Settles executor world
      (passes.foldl (fun state pass => state.1.goOn goOn pass state.2) (executor, world)) := by
  induction passes generalizing executor world with
  | nil => exact ⟨.refl _, horderly⟩
  | cons pass rest ih =>
      obtain ⟨hapart, hrest⟩ := List.nodup_cons.mp hdistinct
      have hpass := hbegun pass List.mem_cons_self
      have hfirst := node.settles_goOn horderly hpass world
      refine hfirst.trans (ih hfirst.orderly ?_ hrest _)
      intro other hother
      apply horderly.mem_begun_goOn (hbegun other (List.mem_cons_of_mem _ hother))
      intro hsame
      exact hapart (List.mem_map.mpr ⟨other, hother, hsame⟩)

theorem settles_goOnUnattended (horderly : executor.Orderly) (world : Scheduler K × Store K) :
    node.Settles executor world (executor.goOnUnattended goOn world) := by
  have hsublist : (executor.abandoned ++ executor.stranded).Sublist executor.begun := by
    rw [Executor.begun, List.append_assoc]
    exact List.sublist_append_right _ _
  exact node.settles_foldl _ horderly (fun pass hmem => hsublist.subset hmem)
    (horderly.distinct_begun.sublist (hsublist.map _)) world

theorem settles_attend (horderly : executor.Orderly) (world : Scheduler K × Store K) :
    node.Settles executor world (executor.attend goOn world) := by
  have hnotice : node.Settles executor world (executor.noticeCancellation, world) :=
    ⟨.act (node.resume executor world) .noticeCancellation, horderly.noticeCancellation⟩
  unfold Executor.attend
  dsimp only
  split
  · next pass hheld =>
      have hbegun : pass ∈ executor.noticeCancellation.begun := by
        simp [Executor.begun, hheld]
      exact hnotice.trans (node.settles_goOn hnotice.orderly hbegun world)
  · exact hnotice

theorem settles_attendAll (further : Nat) (horderly : executor.Orderly)
    (world : Scheduler K × Store K) :
    node.Settles executor world (executor.attendAll goOn further world) := by
  induction further generalizing executor world with
  | zero => exact node.settles_attend horderly world
  | succ further ih =>
      have hfirst := node.settles_attend horderly world
      have hnext : node.Settles (executor.attend goOn world).1 (executor.attend goOn world).2
          ((executor.attend goOn world).1.takeNext, (executor.attend goOn world).2) :=
        ⟨.act (node.resume _ _) .takeNext, hfirst.orderly.takeNext⟩
      exact (hfirst.trans hnext).trans (ih hnext.orderly _)

/-- A node comes to rest by single steps, and its executor stays orderly. -/
theorem reaches_settle (horderly : node.listener.executor.Orderly) :
    node.Reaches node.settle ∧ node.settle.listener.executor.Orderly := by
  let world := (node.scheduler, node.store)
  have hfirst := node.settles_goOnUnattended horderly world
  let queued := (node.listener.executor.goOnUnattended goOn world).1.queue.length
  have hsecond := hfirst.trans (node.settles_attendAll queued hfirst.orderly _)
  have hthird := hsecond.trans (node.settles_goOnUnattended hsecond.orderly _)
  exact ⟨hthird.reaches.trans (.act _ (.advance 0)), hthird.orderly⟩

end Node

end Custody
