/-
# The fate of a pass

What a pass will end with is settled early.  A pass that is spared ends by what its own work returns.
A pass that was told to stop before the worker took it, or that the worker has noticed to be
cancelled, is superseded, whatever its work returns.  Only a pass that the worker still runs and has
not looked at since it was told to stop may go either way.

An effect is a change of the executor that tells at most one given pass to stop and accepts none.
Everything that an executor does is an effect, except that a submission adds a pass.
-/

import Custody.Proofs.Executor.Rest

namespace Custody

/-- The outcome with which a pass that waits will end, given what the worker is doing. -/
def Pass.Destined (pass : Pass ScriptedWork) (worker : Worker ScriptedWork) (outcome : Outcome) :
    Prop :=
  (pass.cancelled = false ∧ outcome = .ofResult pass.work.result) ∨
    (pass.cancelled = true ∧ worker ≠ .running pass ∧ outcome = .superseded)

namespace Executor

variable {executor middle after : Executor ScriptedWork} {told : Option PassId}

/-- A pass ended with an outcome, or it can end with no other. -/
def Bound (executor : Executor ScriptedWork) (id : PassId) (outcome : Outcome) : Prop :=
  (id, outcome) ∈ executor.resolved ∨
    ∃ pass ∈ executor.unresolved, pass.id = id ∧ pass.Destined executor.worker outcome

/-- A change of the executor that tells at most one given pass to stop and accepts none. -/
structure Effect (told : Option PassId) (executor after : Executor ScriptedWork) : Prop where
  disciplined : after.Disciplined
  accepted : after.accepted = executor.accepted
  nextId : executor.nextId ≤ after.nextId
  closed : executor.closed = true → after.closed = true
  current : after.current = executor.current ∨ after.current = none
  /-- Every pass was there before, and only the given one was told to stop. -/
  traced : ∀ pass ∈ after.live, ∃ before ∈ executor.live, before.id = pass.id ∧
    (pass.cancelled = true → before.cancelled = true ∨ told = some pass.id)
  /-- Nobody joins the queue. -/
  queued : ∀ pass ∈ after.queue, ∃ before ∈ executor.queue, before.id = pass.id ∧
    (pass.cancelled = false → before.cancelled = false)
  /-- Only passes that were not told to stop begin. -/
  begins : ∃ taken, after.started = executor.started ++ taken ∧
    ∀ id ∈ taken, ∃ pass ∈ executor.queue, pass.id = id ∧ pass.cancelled = false
  /-- The fate of every other pass stays settled. -/
  bound : ∀ id outcome, told ≠ some id → executor.Bound id outcome → after.Bound id outcome

/-- Where nothing begins, nothing begins that was told to stop. -/
theorem begins_nobody (hstarted : after.started = executor.started) :
    ∃ taken, after.started = executor.started ++ taken ∧
      ∀ id ∈ taken, ∃ pass ∈ executor.queue, pass.id = id ∧ pass.cancelled = false :=
  ⟨[], by rw [hstarted, List.append_nil], List.forall_mem_nil _⟩

namespace Effect

theorem refl (hdisciplined : executor.Disciplined) : Effect told executor executor where
  disciplined := hdisciplined
  accepted := rfl
  nextId := Nat.le_refl _
  closed hclosed := hclosed
  current := Or.inl rfl
  traced pass hmem := ⟨pass, hmem, rfl, Or.inl⟩
  queued pass hmem := ⟨pass, hmem, rfl, id⟩
  begins := begins_nobody rfl
  bound _ _ _ hbound := hbound

theorem trans (hfirst : Effect told executor middle) (hsecond : Effect told middle after) :
    Effect told executor after where
  disciplined := hsecond.disciplined
  accepted := hsecond.accepted.trans hfirst.accepted
  nextId := Nat.le_trans hfirst.nextId hsecond.nextId
  closed hclosed := hsecond.closed (hfirst.closed hclosed)
  current := by
    rcases hsecond.current with hsame | hnone
    · rw [hsame]
      exact hfirst.current
    · exact Or.inr hnone
  traced pass hmem := by
    obtain ⟨between, hbetween, hid, htold⟩ := hsecond.traced pass hmem
    obtain ⟨before, hbefore, hsame, hearlier⟩ := hfirst.traced between hbetween
    refine ⟨before, hbefore, hsame.trans hid, fun hcancelled => ?_⟩
    rcases htold hcancelled with hwas | hnow
    · rw [← hid]
      exact hearlier hwas
    · exact Or.inr hnow
  queued pass hmem := by
    obtain ⟨between, hbetween, hid, hspared⟩ := hsecond.queued pass hmem
    obtain ⟨before, hbefore, hsame, hearlier⟩ := hfirst.queued between hbetween
    exact ⟨before, hbefore, hsame.trans hid, fun hnow => hearlier (hspared hnow)⟩
  begins := by
    obtain ⟨early, hearly, hfrom⟩ := hfirst.begins
    obtain ⟨late, hlate, hthen⟩ := hsecond.begins
    refine ⟨early ++ late, by rw [hlate, hearly, List.append_assoc], fun id hmem => ?_⟩
    rcases List.mem_append.mp hmem with hbefore | hafter
    · exact hfrom id hbefore
    · obtain ⟨pass, hpass, rfl, hspared⟩ := hthen id hafter
      obtain ⟨before, hbefore, hsame, hearlier⟩ := hfirst.queued pass hpass
      exact ⟨before, hbefore, hsame, hearlier hspared⟩
  bound id outcome hother hbound :=
    hsecond.bound id outcome hother (hfirst.bound id outcome hother hbound)

end Effect

/-- The fate of the other passes stays settled when the front of the line is resolved as it had to
be. -/
theorem bound_of_resolving {front : Pass ScriptedWork} {ending : Outcome}
    (hbefore : executor.unresolved = front :: after.unresolved)
    (hresolved : after.resolved = executor.resolved ++ [(front.id, ending)])
    (hidle : after.worker = .idle)
    (hfate : ∀ outcome, front.Destined executor.worker outcome → outcome = ending)
    {id : PassId} {outcome : Outcome} (hbound : executor.Bound id outcome) :
    after.Bound id outcome := by
  rcases hbound with hended | ⟨pass, hwaits, rfl, hdestined⟩
  · left
    rw [hresolved]
    exact List.mem_append_left _ hended
  · rw [hbefore] at hwaits
    rcases List.mem_cons.mp hwaits with rfl | hlater
    · left
      rw [hresolved, ← hfate outcome hdestined]
      exact List.mem_append_right _ List.mem_cons_self
    · refine Or.inr ⟨pass, hlater, rfl, ?_⟩
      rcases hdestined with hspared | ⟨hcancelled, -, hsuperseded⟩
      · exact Or.inl hspared
      · exact Or.inr ⟨hcancelled, by rw [hidle]; exact nofun, hsuperseded⟩

/-- The fate of every pass stays settled when the line does not move. -/
theorem bound_of_same (hline : after.unresolved = executor.unresolved)
    (hresolved : after.resolved = executor.resolved)
    (hworker : ∀ pass : Pass ScriptedWork, pass.cancelled = true →
      executor.worker ≠ .running pass → after.worker ≠ .running pass)
    {id : PassId} {outcome : Outcome} (hbound : executor.Bound id outcome) :
    after.Bound id outcome := by
  rcases hbound with hended | ⟨pass, hwaits, rfl, hdestined⟩
  · exact Or.inl (hresolved ▸ hended)
  · refine Or.inr ⟨pass, hline ▸ hwaits, rfl, ?_⟩
    rcases hdestined with hspared | ⟨hcancelled, hnoticed, hsuperseded⟩
    · exact Or.inl hspared
    · exact Or.inr ⟨hcancelled, hworker pass hcancelled hnoticed, hsuperseded⟩

namespace Effect

/-- The front of the line is resolved as it had to be, and the worker is idle. -/
theorem of_resolving (front : Pass ScriptedWork) (ending : Outcome)
    (hdisciplined : after.Disciplined)
    (hbefore : executor.unresolved = front :: after.unresolved)
    (hresolved : after.resolved = executor.resolved ++ [(front.id, ending)])
    (hidle : after.worker = .idle)
    (hfate : ∀ outcome, front.Destined executor.worker outcome → outcome = ending)
    (hnext : executor.nextId ≤ after.nextId) (hclosed : after.closed = executor.closed)
    (hcurrent : after.current = executor.current ∨ after.current = none)
    (hstarted : after.started = executor.started) (hqueue : after.queue ⊆ executor.queue)
    (hlive : after.live ⊆ executor.live) : Effect told executor after where
  disciplined := hdisciplined
  accepted := by simp [Executor.accepted, hresolved, hbefore]
  nextId := hnext
  closed hwas := hclosed.trans hwas
  current := hcurrent
  traced pass hmem := ⟨pass, hlive hmem, rfl, Or.inl⟩
  queued pass hmem := ⟨pass, hqueue hmem, rfl, id⟩
  begins := begins_nobody hstarted
  bound _ _ _ hbound := bound_of_resolving hbefore hresolved hidle hfate hbound

/-- The line does not move, although the worker may have taken its front. -/
theorem of_same (hdisciplined : after.Disciplined)
    (hline : after.unresolved = executor.unresolved)
    (hresolved : after.resolved = executor.resolved)
    (hworker : ∀ pass : Pass ScriptedWork, pass.cancelled = true →
      executor.worker ≠ .running pass → after.worker ≠ .running pass)
    (hnext : executor.nextId ≤ after.nextId)
    (hclosed : executor.closed = true → after.closed = true)
    (hcurrent : after.current = executor.current)
    (hbegins : ∃ taken, after.started = executor.started ++ taken ∧
      ∀ id ∈ taken, ∃ pass ∈ executor.queue, pass.id = id ∧ pass.cancelled = false)
    (hqueue : after.queue ⊆ executor.queue) (hlive : after.live ⊆ executor.live) :
    Effect told executor after where
  disciplined := hdisciplined
  accepted := by rw [Executor.accepted, hresolved, hline, Executor.accepted]
  nextId := hnext
  closed := hclosed
  current := Or.inl hcurrent
  traced pass hmem := ⟨pass, hlive hmem, rfl, Or.inl⟩
  queued pass hmem := ⟨pass, hqueue hmem, rfl, id⟩
  begins := hbegins
  bound _ _ _ hbound := bound_of_same hline hresolved hworker hbound

end Effect

/-- A pass that was told to stop, and that the worker does not run, can only be superseded. -/
theorem eq_superseded_of_destined {pass : Pass ScriptedWork} {worker : Worker ScriptedWork}
    (hcancelled : pass.cancelled = true) (outcome : Outcome)
    (hdestined : pass.Destined worker outcome) : outcome = .superseded := by
  rcases hdestined with ⟨hspared, -⟩ | ⟨-, -, hsuperseded⟩
  · exact absurd (hspared.symm.trans hcancelled) Bool.false_ne_true
  · exact hsuperseded

/-- The worker takes a pass that is spared, or supersedes one that was told to stop. -/
theorem Disciplined.effect_takeNext (hdisciplined : executor.Disciplined) :
    Effect told executor executor.takeNext := by
  have hqueue := executor.queue_takeNext_subset
  have hlive : executor.takeNext.live ⊆ executor.live := by
    rcases live_takeNext executor with hsame | ⟨pass, -, -, hlost⟩
    · rw [hsame]
      exact List.Subset.refl _
    · rw [hlost]
      exact List.subset_cons_self _ _
  have hkept := hdisciplined.takeNext
  rcases takeNext_cases executor with h | ⟨pass, rest, hidle, hline, hcancelled, h⟩ |
    ⟨pass, rest, hidle, hline, hspared, h⟩
  · rw [h]
    exact .refl hdisciplined
  · rw [h] at hkept hqueue hlive ⊢
    have hfront : executor.unresolved = pass :: rest := by
      simp [unresolved, hidle, hline, Worker.held]
    have hafter : (supersede { executor with queue := rest } pass.id).unresolved = rest := by
      simp [unresolved, supersede, resolve, hidle, Worker.held]
    exact .of_resolving pass .superseded hkept (by rw [hfront, hafter]) rfl hidle
      (eq_superseded_of_destined hcancelled) le_rfl rfl (Or.inl rfl) rfl hqueue hlive
  · rw [h] at hkept hqueue hlive ⊢
    refine .of_same hkept ?_ rfl ?_ le_rfl id rfl ?_ hqueue hlive
    · simp [unresolved, hidle, hline, Worker.held]
    · rintro other hcancelled - hrunning
      cases hrunning
      exact absurd (hspared.symm.trans hcancelled) Bool.false_ne_true
    · refine ⟨[pass.id], rfl, fun id hmem => ⟨pass, ?_, (List.mem_singleton.mp hmem).symm, hspared⟩⟩
      simp [hline]

/-- The pass that the worker has is resolved as it had to be. -/
theorem Disciplined.effect_resolveHeld (hdisciplined : executor.Disciplined)
    {pass : Pass ScriptedWork} (hheld : executor.worker.held = some pass) {ending : Outcome}
    (hfate : ∀ outcome, pass.Destined executor.worker outcome → outcome = ending)
    (metrics : PassMetrics) :
    Effect told executor { executor with
      worker := .idle
      current := if executor.current = some pass.id then none else executor.current
      resolved := executor.resolved ++ [(pass.id, ending)]
      metrics := metrics } := by
  refine .of_resolving pass ending (hdisciplined.resolveHeld hheld ending metrics) ?_ rfl rfl hfate
    le_rfl rfl ?_ rfl (List.Subset.refl _) ?_
  · rw [unresolved, hheld]
    rfl
  · dsimp only
    split
    · exact Or.inr rfl
    · exact Or.inl rfl
  · intro other hmem
    rcases mem_live.mp hmem with hwaits | hleft
    · exact mem_live.mpr (Or.inl (List.mem_append_right _ hwaits))
    · exact mem_live.mpr (Or.inr hleft)

/-- A pass that the worker looks at and finds cancelled is superseded, sooner or later. -/
theorem Disciplined.effect_noticeCancellation (hdisciplined : executor.Disciplined) :
    Effect told executor executor.noticeCancellation := by
  have hkept := hdisciplined.noticeCancellation
  rcases noticing_cases executor with ⟨-, h⟩ | ⟨pass, hrunning, hcancelled, hclosed, h⟩ |
    ⟨pass, hrunning, hcancelled, hopen, h⟩
  · rw [h]
    exact .refl hdisciplined
  · rw [h] at hkept ⊢
    refine .of_same hkept ?_ rfl (fun _ _ _ => nofun) le_rfl id rfl (begins_nobody rfl)
      (List.Subset.refl _) ?_
    · simp [unresolved, hrunning, Worker.held]
    · simp [live, hrunning, Worker.held]
  · have hlive := live_noticeCancellation hopen
    rw [h] at hkept hlive ⊢
    refine .of_resolving pass .superseded hkept ?_ rfl rfl (eq_superseded_of_destined hcancelled)
      le_rfl rfl ?_ rfl (List.Subset.refl _) hlive.subset
    · simp [unresolved, hrunning, Worker.held]
    · dsimp only
      split
      · exact Or.inr rfl
      · exact Or.inl rfl

/-- Nobody waits for a pass that is forgotten. -/
theorem Disciplined.effect_forget (hdisciplined : executor.Disciplined) (id : PassId) :
    Effect told executor (executor.forget id) := by
  have hkept := hdisciplined.forget id
  obtain ⟨metrics, h⟩ := executor.forget_eq id
  rw [h] at hkept ⊢
  refine .of_same hkept rfl rfl (fun _ _ hrunning => hrunning) le_rfl (fun hwas => hwas) rfl
    (begins_nobody rfl) (List.Subset.refl _) ?_
  intro pass hmem
  rcases mem_live.mp hmem with hwaits | hleft
  · exact mem_live.mpr (Or.inl hwaits)
  · apply mem_live.mpr
    right
    exact (List.filter_sublist.append List.filter_sublist).subset hleft

/-- The work of a pass returns.  If the worker runs a pass that was not told to stop, its own work has
returned. -/
theorem Disciplined.effect_workReturned (hdisciplined : executor.Disciplined)
    {pass : Pass ScriptedWork} (hbegun : pass ∈ executor.begun) {result : Except Error Report}
    (hown : pass.cancelled = false → result = pass.work.result) :
    Effect told executor (executor.workReturned pass.id result) := by
  rcases workReturned_cases executor pass.id result with ⟨held, hrunning, hid, h⟩ |
    ⟨held, hdraining, hid, h⟩ | ⟨-, h⟩
  · have hheld : executor.worker.held = some held := by rw [hrunning]; rfl
    have hthere : held ∈ executor.begun := by simp [begun, hheld]
    obtain rfl := hdisciplined.begun_of_id hthere hbegun hid
    have hresolved := hdisciplined.resolveHeld hheld (.ofResult result)
      (executor.metrics.recordResult result)
    rw [h]
    apply Effect.trans _ (hresolved.effect_forget held.id)
    apply hdisciplined.effect_resolveHeld hheld
    rintro outcome (⟨hspared, hends⟩ | ⟨-, hnot, -⟩)
    · rw [hends, hown hspared]
    · exact absurd hrunning hnot
  · have hheld : executor.worker.held = some held := by rw [hdraining]; rfl
    have hresolved := hdisciplined.resolveHeld hheld .superseded executor.metrics.recordSuperseded
    have hcancelled := (hdisciplined.draining held hdraining).1
    rw [h, ← hid]
    apply Effect.trans _ (hresolved.effect_forget held.id)
    apply hdisciplined.effect_resolveHeld hheld
    rintro outcome (⟨hspared, -⟩ | ⟨-, -, hends⟩)
    · exact absurd (hspared.symm.trans hcancelled) Bool.false_ne_true
    · exact hends
  · rw [h]
    exact hdisciplined.effect_forget pass.id

/-- The work of a pass that has begun goes on. -/
theorem Disciplined.effect_goOn (hdisciplined : executor.Disciplined) {pass : Pass ScriptedWork}
    (hbegun : pass ∈ executor.begun) :
    Effect told executor (executor.goOn ScriptedWork.goOn pass ()).1 := by
  by_cases hwaits : pass.Waits
  · rw [hdisciplined.goOn_of_waits hbegun hwaits]
    exact .refl hdisciplined
  · obtain ⟨result, h, hown⟩ := executor.goOn_of_not_waits hwaits
    rw [h]
    exact hdisciplined.effect_workReturned hbegun hown

theorem effect_of_strides {first second : Executor ScriptedWork × Unit}
    (hstrides : Strides ScriptedWork.goOn first second) (hdisciplined : first.1.Disciplined) :
    Effect told first.1 second.1 := by
  induction hstrides with
  | refl => exact .refl hdisciplined
  | tail _ hstride ih =>
      apply ih.trans
      cases hstride with
      | takeNext => exact ih.disciplined.effect_takeNext
      | noticeCancellation => exact ih.disciplined.effect_noticeCancellation
      | goOn _ hbegun => exact ih.disciplined.effect_goOn hbegun

/-- Coming to rest tells nobody to stop and leaves every fate as it is. -/
theorem Disciplined.effect_rest (hdisciplined : executor.Disciplined) :
    Effect told executor executor.rest :=
  effect_of_strides (strides_settle ScriptedWork.goOn hdisciplined ()) hdisciplined

/-- Noting how far the work of a pass has come does not change what it will return. -/
theorem Disciplined.effect_setWork (hdisciplined : executor.Disciplined)
    {pass : Pass ScriptedWork} (hlive : pass ∈ executor.live) {work : ScriptedWork}
    (hsame : work.result = pass.work.result) :
    Effect told executor (executor.setWork pass.id work) where
  disciplined := hdisciplined.setWork pass.id work
  accepted := by
    rw [accepted, unresolved_setWork, List.map_map]
    exact congrArg _ (List.map_congr_left fun other _ => Pass.id_withWork pass.id work other)
  nextId := Nat.le_refl _
  closed hwas := hwas
  current := Or.inl rfl
  traced other hmem := by
    rw [live_setWork] at hmem
    obtain ⟨before, hbefore, rfl⟩ := List.mem_map.mp hmem
    rw [Pass.id_withWork, Pass.cancelled_withWork]
    exact ⟨before, hbefore, rfl, Or.inl⟩
  queued other hmem := by
    obtain ⟨before, hbefore, rfl⟩ := List.mem_map.mp hmem
    rw [Pass.id_withWork, Pass.cancelled_withWork]
    exact ⟨before, hbefore, rfl, id⟩
  begins := begins_nobody rfl
  bound id outcome _ hbound := by
    rcases hbound with hended | ⟨other, hwaits, rfl, hdestined⟩
    · exact Or.inl hended
    · have hresult : (other.withWork pass.id work).work.result = other.work.result := by
        by_cases hid : other.id = pass.id
        · have hother : other ∈ executor.live := mem_live.mpr (Or.inl hwaits)
          obtain rfl := List.inj_on_of_nodup_map hdisciplined.distinct_live hother hlive hid
          rw [Pass.withWork_self]
          exact hsame
        · rw [Pass.withWork_of_ne hid]
      refine Or.inr ⟨other.withWork pass.id work, ?_, Pass.id_withWork _ _ _, ?_⟩
      · rw [unresolved_setWork]
        exact List.mem_map_of_mem hwaits
      · rcases hdestined with ⟨hspared, hends⟩ | ⟨hcancelled, hnoticed, hends⟩
        · exact Or.inl ⟨(Pass.cancelled_withWork _ _ _).trans hspared, by rw [hresult, hends]⟩
        · refine Or.inr ⟨(Pass.cancelled_withWork _ _ _).trans hcancelled, ?_, hends⟩
          intro hrunning
          cases hworker : executor.worker with
          | running held =>
              simp only [Executor.setWork, hworker, Worker.running.injEq] at hrunning
              have hid : held.id = other.id := by
                rw [← Pass.id_withWork pass.id work held, hrunning, Pass.id_withWork]
              have hheld : held ∈ executor.unresolved := by simp [unresolved, hworker, Worker.held]
              obtain rfl := hdisciplined.eq_of_id hheld hwaits hid
              exact hnoticed hworker
          | _ => simp [Executor.setWork, hworker] at hrunning

theorem Disciplined.effect_release (hdisciplined : executor.Disciplined) (id : PassId) :
    Effect told executor (executor.release id) := by
  unfold release
  cases hfound : executor.pass? id with
  | none => exact .refl hdisciplined
  | some pass =>
      have hlive : pass ∈ executor.live := List.mem_of_find?_eq_some hfound
      have hid : pass.id = id := by simpa using List.find?_some hfound
      rw [← hid]
      exact hdisciplined.effect_setWork hlive rfl

/-- The current pass is told to stop. -/
theorem Disciplined.effect_cancelCurrent (hdisciplined : executor.Disciplined) :
    Effect executor.current executor executor.cancelCurrent.2 := by
  have hwaits := hdisciplined.unresolved_cancelCurrent
  have hqueue := hdisciplined.queue_cancelCurrent
  have hkept := hdisciplined.cancelCurrent
  have haccepted := hdisciplined.accepted_cancelCurrent
  obtain ⟨worker, queue, h, -, hworker⟩ := executor.cancelCurrent_eq
  rw [h] at hkept haccepted hwaits hqueue ⊢
  refine ⟨hkept, haccepted, le_rfl, fun hwas => hwas, Or.inr rfl, ?_, ?_, begins_nobody rfl, ?_⟩
  · intro pass hmem
    rcases mem_live.mp hmem with hline | hleft
    · rw [hwaits] at hline
      obtain ⟨before, hbefore, rfl⟩ := List.mem_map.mp hline
      refine ⟨before, mem_live.mpr (Or.inl hbefore), rfl, fun _ => ?_⟩
      cases hcancelled : before.cancelled with
      | true => exact Or.inl rfl
      | false => exact Or.inr ((hdisciplined.spared before hbefore).mp hcancelled)
    · exact ⟨pass, mem_live.mpr (Or.inr hleft), rfl, Or.inl⟩
  · intro pass hmem
    rw [hqueue] at hmem
    obtain ⟨before, hbefore, rfl⟩ := List.mem_map.mp hmem
    exact ⟨before, hbefore, rfl, nofun⟩
  · intro id outcome hother hbound
    rcases hbound with hended | ⟨pass, hline, rfl, hdestined⟩
    · exact Or.inl hended
    · rcases hdestined with ⟨hspared, -⟩ | ⟨hcancelled, hnoticed, hends⟩
      · exact absurd ((hdisciplined.spared pass hline).mp hspared) hother
      · refine Or.inr ⟨pass, ?_, rfl, Or.inr ⟨hcancelled, ?_, hends⟩⟩
        · rw [hwaits, ← Pass.stop_of_cancelled hcancelled]
          exact List.mem_map_of_mem hline
        · intro hrunning
          rcases hworker with rfl | ⟨held, number, hwas, rfl⟩
          · exact hnoticed hrunning
          · have hheld : held ∈ executor.unresolved := by simp [unresolved, hwas, Worker.held]
            have hid : held.id = pass.id := by
              rw [← Pass.id_tellToStop number held, Worker.running.inj hrunning]
            obtain rfl := hdisciplined.eq_of_id hheld hline hid
            exact hnoticed hwas

/-- Nobody is spared when the executor stops accepting passes. -/
theorem Disciplined.effect_shutdownNow (hdisciplined : executor.Disciplined) :
    Effect executor.current executor executor.shutdownNow := by
  have hkept := hdisciplined.shutdownNow
  cases hclosed : executor.closed with
  | true =>
      rw [shutdownNow_of_closed hclosed]
      exact .refl hdisciplined
  | false =>
      apply hdisciplined.effect_cancelCurrent.trans
      rw [shutdownNow_of_open hclosed] at hkept ⊢
      exact .of_same hkept rfl rfl (fun _ _ hrunning => hrunning) le_rfl (fun _ => rfl) rfl
        (begins_nobody rfl) (List.Subset.refl _) (List.Subset.refl _)

/-- A submission that is refused uses up a number. -/
theorem Disciplined.effect_refuse (hdisciplined : executor.Disciplined) :
    Effect told executor { executor with nextId := executor.nextId + 1 } :=
  .of_same
    { hdisciplined with
      numbered := fun id hmem => Nat.lt_succ_of_lt (hdisciplined.numbered id hmem) }
    rfl rfl (fun _ _ hrunning => hrunning) (Nat.le_succ _) (fun hwas => hwas) rfl
    (begins_nobody rfl) (List.Subset.refl _) (List.Subset.refl _)

/-- Somebody waits for the worker. -/
theorem Disciplined.effect_await (hdisciplined : executor.Disciplined) :
    Effect told executor { executor with awaited := true } :=
  .of_same { hdisciplined with } rfl rfl (fun _ _ hrunning => hrunning) le_rfl (fun hwas => hwas) rfl
    (begins_nobody rfl) (List.Subset.refl _) (List.Subset.refl _)

/-- The worker of an executor that is shutting down is dismissed. -/
theorem Disciplined.effect_dismissWorker (hdisciplined : executor.Disciplined)
    (hclosed : executor.closed = true) : Effect told executor executor.dismissWorker where
  disciplined := hdisciplined.dismissWorker hclosed
  accepted := executor.accepted_dismissWorker
  nextId := Nat.le_refl _
  closed hwas := hwas
  current := Or.inl rfl
  traced pass hmem := by
    refine ⟨pass, ?_, rfl, Or.inl⟩
    simp only [live, Executor.dismissWorker, Worker.held, Option.toList, List.nil_append,
      List.mem_append] at hmem ⊢
    tauto
  queued _ hmem := nomatch hmem
  begins := begins_nobody rfl
  bound id outcome _ hbound := by
    left
    rcases hbound with hended | ⟨pass, hline, rfl, hdestined⟩
    · exact List.mem_append_left _ hended
    · have hcancelled := hdisciplined.cancelled_of_closed hclosed hline
      rw [eq_superseded_of_destined hcancelled outcome hdestined]
      exact List.mem_append_right _ (List.mem_map.mpr ⟨pass, hline, rfl⟩)

/-- Shutting down tells the current pass to stop and nobody else, and closes the executor. -/
theorem Disciplined.effect_shutdown (hdisciplined : executor.Disciplined) :
    Effect executor.current executor (executor.shutdown ScriptedWork.goOn ()).2.1 ∧
      (executor.shutdown ScriptedWork.goOn ()).2.1.closed = true := by
  have hclosing := hdisciplined.effect_shutdownNow
  have hawaited := hclosing.trans hclosing.disciplined.effect_await
  have hresting : Effect executor.current { executor.shutdownNow with awaited := true }
      (rest { executor.shutdownNow with awaited := true }) := hawaited.disciplined.effect_rest
  have hrested := hawaited.trans hresting
  have hclosed := hresting.closed executor.closed_shutdownNow
  unfold rest at hrested hclosed
  unfold shutdown
  by_cases hwaited : executor.shutdownNow.awaited = true
  · rw [if_pos hwaited]
    exact ⟨hclosing, executor.closed_shutdownNow⟩
  · rw [if_neg hwaited]
    generalize Executor.settle ScriptedWork.goOn { executor.shutdownNow with awaited := true } () =
      settled at hrested hclosed ⊢
    dsimp only
    split
    · exact ⟨hrested.trans (hrested.disciplined.effect_dismissWorker hclosed), hclosed⟩
    · exact ⟨hrested, hclosed⟩

end Executor

end Custody
