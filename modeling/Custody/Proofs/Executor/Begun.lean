/-
# Passes whose work has begun

The work of a pass goes on wherever the pass is: the worker has it, or it was abandoned.  What becomes
of one pass does not touch another, and noting how far a pass has come is forgotten when it returns.
-/

import Custody.Proofs.Executor.Orderly

namespace Custody

namespace Pass

variable {Work : Type}

theorem withWork_withWork (id : PassId) (first second : Work) (pass : Pass Work) :
    (pass.withWork id first).withWork id second = pass.withWork id second := by
  by_cases hsame : pass.id = id
  · simp [withWork, hsame]
  · simp [withWork, hsame]

/-- Where a pass is left out, it does not matter how far it has come. -/
theorem filter_map_withWork (id : PassId) (work : Work) (passes : List (Pass Work)) :
    (passes.map (withWork id work)).filter (·.id ≠ id) = passes.filter (·.id ≠ id) := by
  induction passes with
  | nil => rfl
  | cons pass rest ih =>
      by_cases hsame : pass.id = id
      · simpa [hsame] using ih
      · simpa [hsame, withWork_of_ne] using ih

end Pass

namespace Executor

variable {Work : Type} {executor : Executor Work}

/-- The passes whose work has begun and has not returned. -/
def begun (executor : Executor Work) : List (Pass Work) :=
  executor.worker.held.toList ++ executor.abandoned ++ executor.stranded

/-- The numbers of the passes whose work has begun differ. -/
theorem Orderly.distinct_begun (horderly : executor.Orderly) :
    (executor.begun.map (·.id)).Nodup := by
  have hdistinct := (executor.live_perm.map (·.id)).nodup_iff.mp horderly.distinct
  rw [List.map_append] at hdistinct
  exact (List.nodup_append.mp hdistinct).2.1

theorem Orderly.begun?_eq_some (horderly : executor.Orderly) {pass : Pass Work} :
    executor.begun? pass.id = some pass ↔ pass ∈ executor.begun := by
  constructor
  · exact List.mem_of_find?_eq_some
  · intro hmem
    cases hfound : executor.begun? pass.id with
    | none =>
        have hnone := List.find?_eq_none.mp hfound pass hmem
        simp at hnone
    | some other =>
        have hother : other ∈ executor.begun := List.mem_of_find?_eq_some hfound
        have hid : other.id = pass.id := by simpa using List.find?_some hfound
        rw [List.inj_on_of_nodup_map horderly.distinct_begun hother hmem hid]

/-- The queue holds none of the passes whose work has begun. -/
theorem Orderly.queue_apart (horderly : executor.Orderly) {pass : Pass Work}
    (hbegun : pass ∈ executor.begun) : ∀ other ∈ executor.queue, other.id ≠ pass.id :=
  (horderly.of_begun (horderly.begun?_eq_some.mpr hbegun)).2.2

theorem begun_setWork (executor : Executor Work) (id : PassId) (work : Work) :
    (executor.setWork id work).begun = executor.begun.map (Pass.withWork id work) := by
  cases hworker : executor.worker <;> simp [begun, setWork, hworker, Worker.held]

theorem mem_begun_setWork {pass : Pass Work} (hbegun : pass ∈ executor.begun) (work : Work) :
    { pass with work := work } ∈ (executor.setWork pass.id work).begun := by
  rw [begun_setWork]
  exact List.mem_map.mpr ⟨pass, hbegun, Pass.withWork_self pass work⟩

/-- Another pass has not moved when one goes on. -/
theorem mem_begun_setWork_of_ne {pass : Pass Work} (hbegun : pass ∈ executor.begun) {id : PassId}
    (hother : pass.id ≠ id) (work : Work) : pass ∈ (executor.setWork id work).begun := by
  rw [begun_setWork]
  exact List.mem_map.mpr ⟨pass, hbegun, Pass.withWork_of_ne hother work⟩

theorem setWork_setWork (executor : Executor Work) (id : PassId) (first second : Work) :
    (executor.setWork id first).setWork id second = executor.setWork id second := by
  have hmap : ∀ passes : List (Pass Work),
      (passes.map (Pass.withWork id first)).map (Pass.withWork id second) =
        passes.map (Pass.withWork id second) := by
    intro passes
    rw [List.map_map]
    exact List.map_congr_left fun pass _ => Pass.withWork_withWork id first second pass
  cases hworker : executor.worker <;>
    simp only [setWork, hworker, hmap, Pass.withWork_withWork]

/-- Nothing moves when a pass has come no further. -/
theorem setWork_work (hdistinct : (executor.live.map (·.id)).Nodup) {pass : Pass Work}
    (hpass : pass ∈ executor.live) : executor.setWork pass.id pass.work = executor := by
  have hself : ∀ other ∈ executor.live, other.withWork pass.id pass.work = other := by
    intro other hother
    by_cases hsame : other.id = pass.id
    · obtain rfl := List.inj_on_of_nodup_map hdistinct hother hpass hsame
      exact Pass.withWork_self other other.work
    · exact Pass.withWork_of_ne hsame pass.work
  have hmap : ∀ passes : List (Pass Work), (∀ other ∈ passes, other ∈ executor.live) →
      passes.map (Pass.withWork pass.id pass.work) = passes := by
    intro passes hall
    rw [List.map_congr_left fun other hother => hself other (hall other hother)]
    exact List.map_id' _
  have hqueue := hmap executor.queue fun other hother => by simp [live, hother]
  have habandoned := hmap executor.abandoned fun other hother => by simp [live, hother]
  have hstranded := hmap executor.stranded fun other hother => by simp [live, hother]
  cases hworker : executor.worker with
  | idle =>
      simp only [setWork, hworker, hqueue, habandoned, hstranded]
      rw [← hworker]
  | gone =>
      simp only [setWork, hworker, hqueue, habandoned, hstranded]
      rw [← hworker]
  | running held =>
      have hheld := hself held (by simp [live, hworker, Worker.held])
      simp only [setWork, hworker, hheld, hqueue, habandoned, hstranded]
      rw [← hworker]
  | draining held =>
      have hheld := hself held (by simp [live, hworker, Worker.held])
      simp only [setWork, hworker, hheld, hqueue, habandoned, hstranded]
      rw [← hworker]

/-- A pass that has come no further has not moved. -/
theorem Orderly.setWork_self (horderly : executor.Orderly) {pass : Pass Work}
    (hbegun : pass ∈ executor.begun) : executor.setWork pass.id pass.work = executor :=
  setWork_work horderly.distinct (horderly.of_begun (horderly.begun?_eq_some.mpr hbegun)).1

/-- Another pass has not moved when one returns. -/
theorem Orderly.mem_begun_workReturned (horderly : executor.Orderly) {pass : Pass Work}
    (hbegun : pass ∈ executor.begun) {id : PassId} (hother : pass.id ≠ id)
    (result : Except Error Report) : pass ∈ (executor.workReturned id result).begun := by
  by_cases hrunning : ∃ other, executor.worker = .running other ∧ other.id = id
  · obtain ⟨other, hrunning, rfl⟩ := hrunning
    obtain ⟨metrics, resolved, h⟩ := workReturned_of_running hrunning result
    rw [h]
    simp only [begun, hrunning, Worker.held, Option.toList, List.mem_append, List.mem_filter,
      List.mem_singleton, decide_eq_true_eq] at hbegun ⊢
    rcases hbegun with (rfl | habandoned) | hstranded
    · exact absurd rfl hother
    · exact Or.inl (Or.inr ⟨habandoned, hother⟩)
    · exact Or.inr ⟨hstranded, hother⟩
  · obtain ⟨metrics, h⟩ := workReturned_of_other horderly.attended
      (fun other hworker hsame => hrunning ⟨other, hworker, hsame⟩) result
    rw [h]
    simp only [begun, List.mem_append, List.mem_filter, decide_eq_true_eq] at hbegun ⊢
    rcases hbegun with (hheld | habandoned) | hstranded
    · exact Or.inl (Or.inl hheld)
    · exact Or.inl (Or.inr ⟨habandoned, hother⟩)
    · exact Or.inr ⟨hstranded, hother⟩

/-- How far a pass had come is forgotten with it. -/
theorem forget_withWork (executor : Executor Work) (id : PassId) (work : Work) :
    ({ executor with
        abandoned := executor.abandoned.map (Pass.withWork id work)
        stranded := executor.stranded.map (Pass.withWork id work) } : Executor Work).forget id =
      executor.forget id := by
  have hsame : ∀ passes : List (Pass Work),
      (passes.map (Pass.withWork id work)).any (·.id = id) = passes.any (·.id = id) := by
    intro passes
    simp [List.any_map, Function.comp_def]
  unfold forget
  by_cases hany : executor.abandoned.any (·.id = id) = true
  · simp only [hsame, hany, if_true, Pass.filter_map_withWork]
  · have hkept : executor.abandoned.map (Pass.withWork id work) = executor.abandoned := by
      refine (List.map_congr_left fun pass hmem => Pass.withWork_of_ne (fun heq => hany ?_) work).trans
        (List.map_id' _)
      exact List.any_eq_true.mpr ⟨pass, hmem, decide_eq_true heq⟩
    simp only [hkept, hany, Bool.false_eq_true, if_false, Pass.filter_map_withWork]

/-- What is abandoned does not matter to the end of a pass that the worker runs. -/
theorem conclude_withWork (executor : Executor Work) (id : PassId) (work : Work)
    (result : Except Error Report) :
    (({ executor with
        abandoned := executor.abandoned.map (Pass.withWork id work)
        stranded := executor.stranded.map (Pass.withWork id work) } :
        Executor Work).clearCurrent id).conclude id result =
      { (executor.clearCurrent id).conclude id result with
        abandoned := ((executor.clearCurrent id).conclude id result).abandoned.map
          (Pass.withWork id work)
        stranded := ((executor.clearCurrent id).conclude id result).stranded.map
          (Pass.withWork id work) } := by
  rw [clearCurrent_eq, clearCurrent_eq]
  cases result with
  | error failure => rfl
  | ok report =>
      cases hinterrupted : report.interrupted <;>
        simp [conclude, hinterrupted, supersede, resolve]

theorem Orderly.workReturned_setWork (horderly : executor.Orderly) {id : PassId}
    (hqueue : ∀ other ∈ executor.queue, other.id ≠ id) (work : Work)
    (result : Except Error Report) :
    (executor.setWork id work).workReturned id result = executor.workReturned id result := by
  have hkept : executor.queue.map (Pass.withWork id work) = executor.queue :=
    queue_setWork hqueue work
  by_cases hrunning : ∃ pass, executor.worker = .running pass ∧ pass.id = id
  · obtain ⟨pass, hrunning, rfl⟩ := hrunning
    have hstill : (executor.setWork pass.id work).worker = .running { pass with work := work } := by
      simp [Executor.setWork, hrunning, Pass.withWork_self]
    have hset : ({ executor.setWork pass.id work with worker := .idle } : Executor Work) =
        { ({ executor with worker := .idle } : Executor Work) with
          abandoned := executor.abandoned.map (Pass.withWork pass.id work)
          stranded := executor.stranded.map (Pass.withWork pass.id work) } := by
      simp [Executor.setWork, hkept]
    have hreturned := workReturned_eq_conclude hstill result
    dsimp only at hreturned
    rw [hreturned, hset, workReturned_eq_conclude hrunning,
      conclude_withWork ({ executor with worker := .idle } : Executor Work)]
    exact forget_withWork _ pass.id work
  · have hother : ∀ pass, executor.worker = .running pass → pass.id ≠ id :=
      fun pass hworker hsame => hrunning ⟨pass, hworker, hsame⟩
    have hstill : (executor.setWork id work).worker = executor.worker := by
      rcases horderly.attended with hidle | ⟨pass, hworker⟩
      · simp [Executor.setWork, hidle]
      · simp [Executor.setWork, hworker, Pass.withWork_of_ne (hother pass hworker)]
    have hset : executor.setWork id work =
        { executor with
          abandoned := executor.abandoned.map (Pass.withWork id work)
          stranded := executor.stranded.map (Pass.withWork id work) } := by
      rw [← hstill]
      simp [Executor.setWork, hkept]
    rw [workReturned_eq_forget horderly.attended hother,
      workReturned_eq_forget (hstill ▸ horderly.attended) (hstill ▸ hother), hset]
    exact forget_withWork executor id work

theorem Orderly.goOn {World : Type} (horderly : executor.Orderly) {pass : Pass Work}
    (hbegun : pass ∈ executor.begun) (step : GoOn Work World) (world : World) :
    (executor.goOn step pass world).1.Orderly := by
  unfold Executor.goOn
  split
  · exact horderly.setWork _ _
  · exact horderly.workReturned (horderly.queue_apart hbegun) _

theorem Orderly.mem_begun_goOn {World : Type} (horderly : executor.Orderly)
    {pass other : Pass Work} (hother : other ∈ executor.begun) (hapart : other.id ≠ pass.id)
    (step : GoOn Work World) (world : World) : other ∈ (executor.goOn step pass world).1.begun := by
  unfold Executor.goOn
  split
  · exact mem_begun_setWork_of_ne hother hapart _
  · exact horderly.mem_begun_workReturned hother hapart _

end Executor

end Custody
