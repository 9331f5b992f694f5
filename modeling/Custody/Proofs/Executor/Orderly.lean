/-
# Passes in order

While an executor is open, its passes are where one expects them: each has a number of its own, the
worker runs one or none, and only the current pass has not been cancelled.  From this it follows what
each step of the executor does to the passes that are still alive: the worker takes them from one
place to another, the current one is told to stop, and one whose work has returned is gone.
-/

import Mathlib.Data.List.Nodup
import Custody.Node.Action

namespace Custody

namespace Pass

variable {Work : Type}

/-- A pass that was told to stop. -/
def stop (pass : Pass Work) : Pass Work := { pass with cancelled := true }

theorem stop_of_cancelled {pass : Pass Work} (hcancelled : pass.cancelled = true) :
    pass.stop = pass := by
  unfold stop
  rw [← hcancelled]

theorem tellToStop_of_cancelled {pass : Pass Work} (hcancelled : pass.cancelled = true)
    (id : PassId) : pass.tellToStop id = pass := by
  unfold tellToStop
  split
  · exact stop_of_cancelled hcancelled
  · rfl

@[simp] theorem work_tellToStop (id : PassId) (pass : Pass Work) :
    (pass.tellToStop id).work = pass.work := by
  unfold tellToStop
  split <;> rfl

@[simp] theorem id_withWork (id : PassId) (work : Work) (pass : Pass Work) :
    (pass.withWork id work).id = pass.id := by
  unfold withWork
  split <;> rfl

@[simp] theorem cancelled_withWork (id : PassId) (work : Work) (pass : Pass Work) :
    (pass.withWork id work).cancelled = pass.cancelled := by
  unfold withWork
  split <;> rfl

theorem withWork_of_ne {id : PassId} {pass : Pass Work} (hother : pass.id ≠ id) (work : Work) :
    pass.withWork id work = pass := if_neg hother

theorem withWork_self (pass : Pass Work) (work : Work) :
    pass.withWork pass.id work = { pass with work := work } := if_pos rfl

end Pass

namespace Executor

variable {Work : Type}

/-- The passes whose work has not returned. -/
def live (executor : Executor Work) : List (Pass Work) :=
  executor.worker.held.toList ++ executor.queue ++ executor.abandoned ++ executor.stranded

/-- An executor that is open and keeps its passes apart. -/
structure Orderly (executor : Executor Work) : Prop where
  isOpen : executor.closed = false
  attended : executor.worker = .idle ∨ ∃ pass, executor.worker = .running pass
  unstranded : executor.stranded = []
  distinct : (executor.live.map (·.id)).Nodup
  numbered : ∀ pass ∈ executor.live, pass.id < executor.nextId
  /-- Only the current pass was not told to stop. -/
  current : ∀ pass ∈ executor.live, pass.cancelled = false → executor.current = some pass.id
  abandoned : ∀ pass ∈ executor.abandoned, pass.cancelled = true

theorem orderly_new (name : String) : (new name : Executor Work).Orderly where
  isOpen := rfl
  attended := Or.inl rfl
  unstranded := rfl
  distinct := List.nodup_nil
  numbered _ hmem := nomatch hmem
  current _ hmem := nomatch hmem
  abandoned _ hmem := nomatch hmem

namespace Orderly

variable {executor : Executor Work}

/-- Two passes under one number are the same. -/
theorem eq_of_id (horderly : executor.Orderly) {first second : Pass Work}
    (hfirst : first ∈ executor.live) (hsecond : second ∈ executor.live)
    (hsame : first.id = second.id) : first = second :=
  List.inj_on_of_nodup_map horderly.distinct hfirst hsecond hsame

/-- An executor keeps its order when some of its passes leave and the others stay as they are. -/
theorem of_leaving {after : Executor Work} (horderly : executor.Orderly)
    (hopen : after.closed = executor.closed)
    (hattended : after.worker = .idle ∨ ∃ pass, after.worker = .running pass)
    (hstranded : after.stranded = executor.stranded) (hnext : after.nextId = executor.nextId)
    {kept : List (Pass Work)} (hkept : kept.Sublist executor.live) (hlive : after.live.Perm kept)
    (hcurrent : ∀ pass ∈ after.live, pass.cancelled = false →
      executor.current = some pass.id → after.current = some pass.id)
    (habandoned : ∀ pass ∈ after.abandoned, pass ∈ executor.abandoned ∨ pass.cancelled = true) :
    after.Orderly := by
  have hold : ∀ pass ∈ after.live, pass ∈ executor.live :=
    fun pass hmem => hkept.subset (hlive.subset hmem)
  refine ⟨hopen.trans horderly.isOpen, hattended, hstranded.trans horderly.unstranded, ?_, ?_, ?_, ?_⟩
  · rw [(hlive.map _).nodup_iff]
    exact horderly.distinct.sublist (hkept.map _)
  · intro pass hmem
    rw [hnext]
    exact horderly.numbered pass (hold pass hmem)
  · intro pass hmem hlively
    exact hcurrent pass hmem hlively (horderly.current pass (hold pass hmem) hlively)
  · intro pass hmem
    rcases habandoned pass hmem with hbefore | hcancelled
    · exact horderly.abandoned pass hbefore
    · exact hcancelled

end Orderly

variable {executor : Executor Work}

/-- The idle worker takes a pass, or skips one that was cancelled before it began. -/
theorem takeNext_cases (executor : Executor Work) :
    executor.takeNext = executor ∨
    (∃ pass rest, executor.worker = .idle ∧ executor.queue = pass :: rest ∧
      pass.cancelled = true ∧
      executor.takeNext = { executor with queue := rest }.supersede pass.id) ∨
    ∃ pass rest, executor.worker = .idle ∧ executor.queue = pass :: rest ∧
      pass.cancelled = false ∧
      executor.takeNext =
        { executor with
          queue := rest
          worker := .running pass
          started := executor.started ++ [pass.id] } := by
  unfold Executor.takeNext
  split
  · next pass rest hidle hqueue =>
      right
      by_cases hcancelled : pass.cancelled = true
      · exact Or.inl ⟨pass, rest, hidle, hqueue, hcancelled, by simp [hcancelled]⟩
      · have hspared := eq_false_of_ne_true hcancelled
        exact Or.inr ⟨pass, rest, hidle, hqueue, hspared, by simp [hspared]⟩
  · exact Or.inl rfl

/-- All that is lost when the worker moves on is a pass that was cancelled before it began. -/
theorem live_takeNext (executor : Executor Work) :
    executor.takeNext.live = executor.live ∨
      ∃ pass ∈ executor.queue, pass.cancelled = true ∧
        executor.live = pass :: executor.takeNext.live := by
  rcases takeNext_cases executor with h | ⟨pass, rest, hidle, hqueue, hcancelled, h⟩ |
    ⟨pass, rest, hidle, hqueue, -, h⟩
  · rw [h]
    exact Or.inl rfl
  · refine Or.inr ⟨pass, hqueue ▸ List.mem_cons_self, hcancelled, ?_⟩
    rw [h]
    simp [live, supersede, resolve, hidle, hqueue, Worker.held]
  · rw [h]
    left
    simp [live, hqueue, hidle, Worker.held]

/-- The worker takes a pass from the front of the queue, if at all. -/
theorem queue_takeNext_subset (executor : Executor Work) :
    executor.takeNext.queue ⊆ executor.queue := by
  rcases takeNext_cases executor with h | ⟨pass, rest, -, hqueue, -, h⟩ |
    ⟨pass, rest, -, hqueue, -, h⟩
  · rw [h]
    exact List.Subset.refl _
  · rw [h, hqueue]
    exact List.subset_cons_self _ _
  · rw [h, hqueue]
    exact List.subset_cons_self _ _

theorem Orderly.takeNext (horderly : executor.Orderly) : executor.takeNext.Orderly := by
  have hkept : executor.takeNext.live.Sublist executor.live := by
    rcases live_takeNext executor with hsame | ⟨pass, -, -, hlost⟩
    · rw [hsame]
    · rw [hlost]
      exact List.sublist_cons_self _ _
  rcases takeNext_cases executor with h | ⟨pass, rest, -, -, -, h⟩ | ⟨pass, rest, -, -, -, h⟩
  · rw [h]
    exact horderly
  · rw [h] at hkept ⊢
    exact horderly.of_leaving rfl horderly.attended rfl rfl hkept (.refl _)
      (fun _ _ _ hcurrent => hcurrent) fun _ hmem => Or.inl hmem
  · rw [h] at hkept ⊢
    exact horderly.of_leaving rfl (Or.inr ⟨pass, rfl⟩) rfl rfl hkept (.refl _)
      (fun _ _ _ hcurrent => hcurrent) fun _ hmem => Or.inl hmem

/-- The worker of an open executor lets go of a pass that was cancelled. -/
theorem noticeCancellation_cases (hopen : executor.closed = false) :
    executor.noticeCancellation = executor ∨
    ∃ pass, executor.worker = .running pass ∧ pass.cancelled = true ∧
      executor.noticeCancellation =
        ({ executor with
            worker := .idle
            abandoned := executor.abandoned ++ [pass]
            metrics := executor.metrics.moveAbandoned 1 }.clearCurrent pass.id).supersede pass.id := by
  unfold Executor.noticeCancellation
  split
  · next pass hrunning =>
      by_cases hcancelled : pass.cancelled = true
      · exact Or.inr ⟨pass, hrunning, hcancelled, by simp [hcancelled, hopen]⟩
      · exact Or.inl (by simp [hcancelled])
  · exact Or.inl rfl

/-- Only a pass that is still current is cleared. -/
theorem clearCurrent_eq (executor : Executor Work) (id : PassId) :
    executor.clearCurrent id =
      { executor with
        current := if executor.current = some id then none else executor.current } := by
  unfold clearCurrent
  split
  · rfl
  · rfl

/-- A pass is still alive when it is abandoned. -/
theorem live_noticeCancellation (hopen : executor.closed = false) :
    executor.noticeCancellation.live.Perm executor.live := by
  rcases noticeCancellation_cases hopen with h | ⟨pass, hrunning, -, h⟩
  · rw [h]
  · rw [h, clearCurrent_eq]
    simp only [live, supersede, resolve, hrunning, Worker.held, Option.toList, List.nil_append,
      List.append_assoc, List.singleton_append]
    rw [← List.append_assoc, ← List.append_assoc]
    exact List.perm_middle

theorem queue_noticeCancellation (hopen : executor.closed = false) :
    executor.noticeCancellation.queue = executor.queue := by
  rcases noticeCancellation_cases hopen with h | ⟨pass, -, -, h⟩
  · rw [h]
  · rw [h, clearCurrent_eq]
    rfl

theorem Orderly.noticeCancellation (horderly : executor.Orderly) :
    executor.noticeCancellation.Orderly := by
  have hlive := live_noticeCancellation horderly.isOpen
  rcases noticeCancellation_cases horderly.isOpen with h | ⟨pass, hrunning, hcancelled, h⟩
  · rw [h]
    exact horderly
  · have hpass : pass ∈ executor.live := by simp [live, hrunning, Worker.held]
    rw [h, clearCurrent_eq] at hlive ⊢
    refine horderly.of_leaving rfl (Or.inl rfl) rfl rfl (List.Sublist.refl _) hlive ?_ ?_
    · intro other hmem hlively hcurrent
      -- The pass that is let go of was told to stop, so the current one is another.
      have hother : executor.current ≠ some pass.id := by
        intro hsame
        have hid : other.id = pass.id := Option.some.inj (hcurrent.symm.trans hsame)
        obtain rfl := horderly.eq_of_id (hlive.subset hmem) hpass hid
        exact Bool.false_ne_true (hlively.symm.trans hcancelled)
      exact (if_neg hother).trans hcurrent
    · intro other hmem
      rcases List.mem_append.mp hmem with hbefore | hnow
      · exact Or.inl hbefore
      · exact Or.inr (List.mem_singleton.mp hnow ▸ hcancelled)

/-- The live passes are those in the queue and those that have begun. -/
theorem live_perm (executor : Executor Work) :
    executor.live.Perm (executor.queue ++
      (executor.worker.held.toList ++ executor.abandoned ++ executor.stranded)) := by
  simp only [live, List.append_assoc]
  rw [← List.append_assoc, ← List.append_assoc executor.queue]
  exact List.perm_append_comm.append_right _

/-- A pass that has begun is alive, and the queue does not hold its number. -/
theorem Orderly.of_begun (horderly : executor.Orderly) {id : PassId} {pass : Pass Work}
    (hbegun : executor.begun? id = some pass) :
    pass ∈ executor.live ∧ pass.id = id ∧ ∀ other ∈ executor.queue, other.id ≠ pass.id := by
  have hmem := List.mem_of_find?_eq_some hbegun
  have hid : pass.id = id := by simpa using List.find?_some hbegun
  have hperm := executor.live_perm
  have hdistinct := (hperm.map (·.id)).nodup_iff.mp horderly.distinct
  rw [List.map_append] at hdistinct
  refine ⟨hperm.mem_iff.mpr (List.mem_append_right _ hmem), hid, fun other hother hsame => ?_⟩
  have hqueued : pass.id ∈ executor.queue.map (·.id) := hsame ▸ List.mem_map_of_mem hother
  exact List.disjoint_of_nodup_append hdistinct hqueued (List.mem_map_of_mem hmem)

/-- Noting how far a pass has come changes its work and nothing else. -/
theorem live_setWork (executor : Executor Work) (id : PassId) (work : Work) :
    (executor.setWork id work).live = executor.live.map (Pass.withWork id work) := by
  cases hworker : executor.worker <;>
    simp [live, setWork, hworker, Worker.held]

theorem Orderly.setWork (horderly : executor.Orderly) (id : PassId) (work : Work) :
    (executor.setWork id work).Orderly := by
  have hids : (executor.setWork id work).live.map (·.id) = executor.live.map (·.id) := by
    rw [live_setWork, List.map_map]
    exact List.map_congr_left fun pass _ => Pass.id_withWork id work pass
  refine ⟨horderly.isOpen, ?_, ?_, ?_, ?_, ?_, ?_⟩
  · rcases horderly.attended with hidle | ⟨pass, hrunning⟩
    · exact Or.inl (by simp [Executor.setWork, hidle])
    · exact Or.inr ⟨Pass.withWork id work pass, by simp [Executor.setWork, hrunning]⟩
  · simp [Executor.setWork, horderly.unstranded]
  · rw [hids]
    exact horderly.distinct
  · rw [live_setWork]
    intro pass hmem
    obtain ⟨before, hbefore, rfl⟩ := List.mem_map.mp hmem
    rw [Pass.id_withWork]
    exact horderly.numbered before hbefore
  · rw [live_setWork]
    intro pass hmem hlively
    obtain ⟨before, hbefore, rfl⟩ := List.mem_map.mp hmem
    rw [Pass.cancelled_withWork] at hlively
    rw [Pass.id_withWork]
    exact horderly.current before hbefore hlively
  · intro pass hmem
    obtain ⟨before, hbefore, rfl⟩ := List.mem_map.mp hmem
    rw [Pass.cancelled_withWork]
    exact horderly.abandoned before hbefore

/-- The queue does not change when the work of a pass that has begun goes on. -/
theorem queue_setWork {id : PassId} (hqueue : ∀ other ∈ executor.queue, other.id ≠ id)
    (work : Work) : (executor.setWork id work).queue = executor.queue := by
  show executor.queue.map (Pass.withWork id work) = executor.queue
  rw [List.map_congr_left fun other hother => Pass.withWork_of_ne (hqueue other hother) work]
  exact List.map_id' _

/-- Of the live passes one has come further, and the others are where they were. -/
theorem Orderly.mem_live_setWork (horderly : executor.Orderly) {pass : Pass Work}
    (hpass : pass ∈ executor.live) (work : Work) {other : Pass Work} :
    other ∈ (executor.setWork pass.id work).live ↔
      (other ∈ executor.live ∧ other.id ≠ pass.id) ∨ other = { pass with work := work } := by
  rw [live_setWork, List.mem_map]
  constructor
  · rintro ⟨before, hbefore, rfl⟩
    by_cases hsame : before.id = pass.id
    · obtain rfl := horderly.eq_of_id hbefore hpass hsame
      exact Or.inr (Pass.withWork_self before work)
    · rw [Pass.withWork_of_ne hsame]
      exact Or.inl ⟨hbefore, hsame⟩
  · rintro (⟨hmem, hother⟩ | rfl)
    · exact ⟨other, hmem, Pass.withWork_of_ne hother work⟩
    · exact ⟨pass, hpass, Pass.withWork_self pass work⟩

/-- The end of a pass clears its number from the worker, at most. -/
theorem conclude_eq (executor : Executor Work) (id : PassId) (result : Except Error Report) :
    ∃ metrics resolved, executor.conclude id result =
      { executor with metrics := metrics, resolved := resolved } := by
  unfold conclude
  split
  · split
    · exact ⟨_, _, rfl⟩
    · exact ⟨_, _, rfl⟩
  · exact ⟨_, _, rfl⟩

/-- Nobody waits any more for the pass with a number. -/
def forget (executor : Executor Work) (id : PassId) : Executor Work :=
  let executor :=
    if executor.abandoned.any (·.id = id) then
      { executor with
        abandoned := executor.abandoned.filter (·.id ≠ id)
        metrics := executor.metrics.moveAbandoned (-1) }
    else executor
  { executor with stranded := executor.stranded.filter (·.id ≠ id) }

theorem forget_eq (executor : Executor Work) (id : PassId) :
    ∃ metrics, executor.forget id =
      { executor with
        abandoned := executor.abandoned.filter (·.id ≠ id)
        stranded := executor.stranded.filter (·.id ≠ id)
        metrics := metrics } := by
  unfold forget
  by_cases hany : executor.abandoned.any (·.id = id) = true
  · rw [if_pos hany]
    exact ⟨_, rfl⟩
  · have hsame : executor.abandoned.filter (·.id ≠ id) = executor.abandoned := by
      refine List.filter_eq_self.mpr fun pass hmem => decide_eq_true fun hsame => hany ?_
      exact List.any_eq_true.mpr ⟨pass, hmem, decide_eq_true hsame⟩
    rw [if_neg hany, hsame]
    exact ⟨_, rfl⟩

/-- The pass that the worker runs ends by what its work returned. -/
theorem workReturned_eq_conclude {pass : Pass Work} (hrunning : executor.worker = .running pass)
    (result : Except Error Report) : executor.workReturned pass.id result =
      ((({ executor with worker := .idle }.clearCurrent pass.id).conclude pass.id
        result).forget pass.id) := by
  unfold workReturned
  rw [hrunning]
  simp only [if_true]
  rfl

/-- Any other pass is forgotten. -/
theorem workReturned_eq_forget {id : PassId}
    (hattended : executor.worker = .idle ∨ ∃ pass, executor.worker = .running pass)
    (hother : ∀ pass, executor.worker = .running pass → pass.id ≠ id)
    (result : Except Error Report) : executor.workReturned id result = executor.forget id := by
  unfold workReturned
  rcases hattended with hidle | ⟨pass, hrunning⟩
  · rw [hidle]
    rfl
  · rw [hrunning]
    simp only [if_neg (hother pass hrunning)]
    rfl

/-- When the work of the pass that the worker runs returns, the worker is idle again. -/
theorem workReturned_of_running {pass : Pass Work} (hrunning : executor.worker = .running pass)
    (result : Except Error Report) :
    ∃ metrics resolved, executor.workReturned pass.id result =
      { executor with
        worker := .idle
        current := if executor.current = some pass.id then none else executor.current
        abandoned := executor.abandoned.filter (·.id ≠ pass.id)
        stranded := executor.stranded.filter (·.id ≠ pass.id)
        metrics := metrics
        resolved := resolved } := by
  obtain ⟨metrics, resolved, hconclude⟩ :=
    conclude_eq ({ executor with worker := .idle }.clearCurrent pass.id) pass.id result
  rw [workReturned_eq_conclude hrunning, hconclude, clearCurrent_eq]
  obtain ⟨later, hforget⟩ := forget_eq
    { executor with
      worker := .idle
      current := if executor.current = some pass.id then none else executor.current
      metrics := metrics
      resolved := resolved } pass.id
  exact ⟨later, resolved, hforget⟩

/-- When the work of another pass returns, that pass is forgotten. -/
theorem workReturned_of_other {id : PassId}
    (hattended : executor.worker = .idle ∨ ∃ pass, executor.worker = .running pass)
    (hother : ∀ pass, executor.worker = .running pass → pass.id ≠ id)
    (result : Except Error Report) :
    ∃ metrics, executor.workReturned id result =
      { executor with
        abandoned := executor.abandoned.filter (·.id ≠ id)
        stranded := executor.stranded.filter (·.id ≠ id)
        metrics := metrics } := by
  rw [workReturned_eq_forget hattended hother]
  exact executor.forget_eq id

/-- A pass whose work has returned is no longer alive; all others are. -/
theorem Orderly.live_workReturned (horderly : executor.Orderly) {id : PassId}
    (hqueue : ∀ other ∈ executor.queue, other.id ≠ id) (result : Except Error Report) :
    (executor.workReturned id result).live = executor.live.filter (·.id ≠ id) := by
  have hqueued : executor.queue.filter (·.id ≠ id) = executor.queue :=
    List.filter_eq_self.mpr fun other hother => decide_eq_true (hqueue other hother)
  by_cases hrunning : ∃ pass, executor.worker = .running pass ∧ pass.id = id
  · obtain ⟨pass, hrunning, rfl⟩ := hrunning
    obtain ⟨metrics, resolved, h⟩ := workReturned_of_running hrunning result
    rw [h]
    simp only [live, hrunning, Worker.held, Option.toList, List.filter_append, hqueued]
    simp
  · have hother : ∀ pass, executor.worker = .running pass → pass.id ≠ id :=
      fun pass hworker hsame => hrunning ⟨pass, hworker, hsame⟩
    obtain ⟨metrics, h⟩ := workReturned_of_other horderly.attended hother result
    rw [h]
    rcases horderly.attended with hidle | ⟨pass, hworker⟩
    · simp only [live, hidle, Worker.held, Option.toList, List.filter_append, hqueued]
      simp
    · simp only [live, hworker, Worker.held, Option.toList, List.filter_append, hqueued]
      simp [hother pass hworker]

theorem Orderly.queue_workReturned (horderly : executor.Orderly) (id : PassId)
    (result : Except Error Report) :
    (executor.workReturned id result).queue = executor.queue := by
  by_cases hrunning : ∃ pass, executor.worker = .running pass ∧ pass.id = id
  · obtain ⟨pass, hrunning, rfl⟩ := hrunning
    obtain ⟨metrics, resolved, h⟩ := workReturned_of_running hrunning result
    rw [h]
  · obtain ⟨metrics, h⟩ := workReturned_of_other horderly.attended
      (fun pass hworker hsame => hrunning ⟨pass, hworker, hsame⟩) result
    rw [h]

theorem Orderly.workReturned (horderly : executor.Orderly) {id : PassId}
    (hqueue : ∀ other ∈ executor.queue, other.id ≠ id) (result : Except Error Report) :
    (executor.workReturned id result).Orderly := by
  have hlive := horderly.live_workReturned hqueue result
  have hleft : ∀ pass ∈ (executor.workReturned id result).live, pass.id ≠ id := by
    intro pass hmem
    rw [hlive] at hmem
    exact of_decide_eq_true (List.mem_filter.mp hmem).2
  have hstranded : executor.stranded.filter (·.id ≠ id) = executor.stranded := by
    rw [horderly.unstranded]
    rfl
  by_cases hrunning : ∃ pass, executor.worker = .running pass ∧ pass.id = id
  · obtain ⟨pass, hrunning, rfl⟩ := hrunning
    obtain ⟨metrics, resolved, h⟩ := workReturned_of_running hrunning result
    rw [h] at hlive hleft ⊢
    refine horderly.of_leaving rfl (Or.inl rfl) hstranded rfl List.filter_sublist
      (.of_eq hlive) ?_ fun other hmem => Or.inl (List.mem_filter.mp hmem).1
    intro other hmem _ hcurrent
    have hother : executor.current ≠ some pass.id :=
      fun hsame => hleft other hmem (Option.some.inj (hcurrent.symm.trans hsame))
    exact (if_neg hother).trans hcurrent
  · obtain ⟨metrics, h⟩ := workReturned_of_other horderly.attended
      (fun pass hworker hsame => hrunning ⟨pass, hworker, hsame⟩) result
    rw [h] at hlive ⊢
    exact horderly.of_leaving rfl horderly.attended hstranded rfl List.filter_sublist
      (.of_eq hlive) (fun _ _ _ hcurrent => hcurrent)
      fun other hmem => Or.inl (List.mem_filter.mp hmem).1

/-- The current pass is told to stop, and then none is left that was not. -/
theorem Orderly.live_cancelCurrent (horderly : executor.Orderly) :
    executor.cancelCurrent.2.live = executor.live.map Pass.stop := by
  cases hcurrent : executor.current with
  | none =>
      have hstopped : ∀ pass ∈ executor.live, pass.stop = pass := by
        intro pass hmem
        refine Pass.stop_of_cancelled (eq_true_of_ne_false fun hlively => ?_)
        have hsame := horderly.current pass hmem hlively
        rw [hcurrent] at hsame
        cases hsame
      rw [List.map_congr_left hstopped, List.map_id']
      simp [Executor.cancelCurrent, hcurrent]
  | some id =>
      have htold : ∀ pass ∈ executor.live, pass.tellToStop id = pass.stop := by
        intro pass hmem
        by_cases hlively : pass.cancelled = false
        · have hsame := horderly.current pass hmem hlively
          exact if_pos (Option.some.inj (hsame.symm.trans hcurrent))
        · have hcancelled := eq_true_of_ne_false hlively
          rw [Pass.tellToStop_of_cancelled hcancelled, Pass.stop_of_cancelled hcancelled]
      have habandoned : executor.abandoned.map (Pass.tellToStop id) = executor.abandoned := by
        rw [List.map_congr_left fun pass hmem =>
          Pass.tellToStop_of_cancelled (horderly.abandoned pass hmem) id]
        exact List.map_id' _
      rw [← List.map_congr_left htold]
      rcases horderly.attended with hidle | ⟨pass, hrunning⟩
      · simp [live, Executor.cancelCurrent, hcurrent, Executor.tellToStop, hidle, Worker.held,
          habandoned, horderly.unstranded]
      · simp [live, Executor.cancelCurrent, hcurrent, Executor.tellToStop, hrunning, Worker.held,
          habandoned, horderly.unstranded]

/-- The queue holds the same work after the current pass was told to stop. -/
theorem queue_cancelCurrent (executor : Executor Work) :
    executor.cancelCurrent.2.queue.map (·.work) = executor.queue.map (·.work) := by
  unfold Executor.cancelCurrent
  split
  · show (executor.queue.map (Pass.tellToStop _)).map (·.work) = _
    rw [List.map_map]
    exact List.map_congr_left fun pass _ => Pass.work_tellToStop _ pass
  · rfl

/-- Telling the current pass to stop moves no pass to another place. -/
theorem cancelCurrent_places (executor : Executor Work) :
    executor.cancelCurrent.2.closed = executor.closed ∧
      executor.cancelCurrent.2.stranded = executor.stranded ∧
      executor.cancelCurrent.2.nextId = executor.nextId ∧
      executor.cancelCurrent.2.abandoned = executor.abandoned := by
  unfold Executor.cancelCurrent
  split
  · exact ⟨rfl, rfl, rfl, rfl⟩
  · exact ⟨rfl, rfl, rfl, rfl⟩

theorem Orderly.attended_cancelCurrent (horderly : executor.Orderly) :
    executor.cancelCurrent.2.worker = .idle ∨
      ∃ pass, executor.cancelCurrent.2.worker = .running pass := by
  cases hcurrent : executor.current with
  | none => simpa [Executor.cancelCurrent, hcurrent] using horderly.attended
  | some id =>
      rcases horderly.attended with hidle | ⟨pass, hrunning⟩
      · exact Or.inl (by simp [Executor.cancelCurrent, hcurrent, Executor.tellToStop, hidle])
      · refine Or.inr ⟨pass.tellToStop id, ?_⟩
        simp [Executor.cancelCurrent, hcurrent, Executor.tellToStop, hrunning]

theorem Orderly.cancelCurrent (horderly : executor.Orderly) :
    executor.cancelCurrent.2.Orderly := by
  obtain ⟨hclosed, hstranded, hnext, habandoned⟩ := executor.cancelCurrent_places
  have hlive := horderly.live_cancelCurrent
  refine ⟨hclosed.trans horderly.isOpen, horderly.attended_cancelCurrent,
    hstranded.trans horderly.unstranded, ?_, ?_, ?_, ?_⟩
  · rw [hlive, List.map_map]
    exact horderly.distinct
  · intro pass hmem
    rw [hlive] at hmem
    obtain ⟨before, hbefore, rfl⟩ := List.mem_map.mp hmem
    rw [hnext]
    exact horderly.numbered before hbefore
  · intro pass hmem hlively
    rw [hlive] at hmem
    obtain ⟨before, -, rfl⟩ := List.mem_map.mp hmem
    cases hlively
  · rw [habandoned]
    exact horderly.abandoned

/-- An open executor accepts every pass, behind those that are told to stop. -/
theorem Orderly.submit_eq (horderly : executor.Orderly) (work : Work) :
    ∃ cleared : Executor Work, cleared.Orderly ∧ cleared.live = executor.live.map Pass.stop ∧
      cleared.queue.map (·.work) = executor.queue.map (·.work) ∧
      cleared.nextId = executor.nextId + 1 ∧
      executor.submit work =
        (.ok executor.nextId,
          { cleared with
            current := some executor.nextId
            queue := cleared.queue ++ [⟨executor.nextId, false, work⟩]
            metrics := cleared.metrics.recordSubmitted }) := by
  have hnumbered : Orderly { executor with nextId := executor.nextId + 1 } :=
    { horderly with numbered := fun pass hmem => Nat.lt_succ_of_lt (horderly.numbered pass hmem) }
  have hcleared := hnumbered.cancelCurrent
  have hattended := hcleared.attended
  refine ⟨_, hcleared, hnumbered.live_cancelCurrent, queue_cancelCurrent _,
    (cancelCurrent_places _).2.2.1, ?_⟩
  unfold Executor.submit
  dsimp only
  rw [if_neg (ne_true_of_eq_false horderly.isOpen)]
  split
  · next hgone =>
      rw [hgone] at hattended
      simp at hattended
  · rfl

/-- A submitted pass joins the live ones, all of which are told to stop. -/
theorem Orderly.live_submit (horderly : executor.Orderly) (work : Work) :
    (executor.submit work).2.live.Perm
      (⟨executor.nextId, false, work⟩ :: executor.live.map Pass.stop) := by
  obtain ⟨cleared, -, hlive, -, -, h⟩ := horderly.submit_eq work
  rw [h, ← hlive]
  simp only [live, List.append_assoc, List.singleton_append]
  rw [← List.append_assoc, ← List.append_assoc cleared.worker.held.toList]
  exact List.perm_middle

theorem Orderly.queue_submit (horderly : executor.Orderly) (work : Work) :
    (executor.submit work).2.queue.map (·.work) = executor.queue.map (·.work) ++ [work] := by
  obtain ⟨cleared, -, -, hqueue, -, h⟩ := horderly.submit_eq work
  rw [h, ← hqueue]
  simp

theorem Orderly.submit (horderly : executor.Orderly) (work : Work) :
    (executor.submit work).2.Orderly := by
  have hjoined := horderly.live_submit work
  obtain ⟨cleared, hcleared, hlive, -, hnext, h⟩ := horderly.submit_eq work
  rw [h, ← hlive] at hjoined
  rw [h]
  refine ⟨hcleared.isOpen, hcleared.attended, hcleared.unstranded, ?_, ?_, ?_, hcleared.abandoned⟩
  · refine (hjoined.map _).nodup_iff.mpr (List.nodup_cons.mpr ⟨fun hmem => ?_, hcleared.distinct⟩)
    obtain ⟨pass, hpass, hsame⟩ := List.mem_map.mp hmem
    rw [hlive] at hpass
    obtain ⟨before, hbefore, rfl⟩ := List.mem_map.mp hpass
    have hold := horderly.numbered before hbefore
    exact absurd hsame (Nat.ne_of_lt hold)
  · intro pass hmem
    rcases List.mem_cons.mp (hjoined.subset hmem) with rfl | hold
    · exact hnext ▸ Nat.lt_succ_self _
    · exact hcleared.numbered pass hold
  · intro pass hmem hlively
    rcases List.mem_cons.mp (hjoined.subset hmem) with rfl | hold
    · rfl
    · rw [hlive] at hold
      obtain ⟨before, -, rfl⟩ := List.mem_map.mp hold
      cases hlively

end Executor

end Custody
