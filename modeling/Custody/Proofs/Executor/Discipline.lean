/-
# The discipline of the queue

Accepted passes stand in a line.  The front of the line was resolved, the worker has the next one, and
the others wait in the queue; every step of the executor only moves the boundary, and a submission
joins at the end.  Of the passes that are not resolved only the last one may be spared, and it is
spared exactly while it is current.  Passes that outlive their outcome were told to stop and
superseded.

All of this holds of an executor that is open, closed or without its worker.
-/

import Mathlib.Data.List.Infix
import Custody.Proofs.Executor.Begun

namespace Custody

namespace Pass

variable {Work : Type}

@[simp] theorem id_tellToStop (id : PassId) (pass : Pass Work) :
    (pass.tellToStop id).id = pass.id := by
  unfold tellToStop
  split <;> rfl

end Pass

/-- The outcome of a pass whose work returns while the worker runs it. -/
def Outcome.ofResult : Except Error Report → Outcome
  | .ok report => if report.interrupted then .superseded else .scheduled report
  | .error failure => .failed failure.message

/-- Take note of the end of a pass whose work returns while the worker runs it. -/
def PassMetrics.recordResult (metrics : PassMetrics) : Except Error Report → PassMetrics
  | .ok report =>
      if report.interrupted then metrics.recordSuperseded
      else metrics.recordEnd true Duration.zero
  | .error failure => (metrics.recordFailure failure.kind).recordEnd false Duration.zero

namespace Executor

variable {Work : Type}

/-- The accepted passes that were not resolved, the oldest first. -/
def unresolved (executor : Executor Work) : List (Pass Work) :=
  executor.worker.held.toList ++ executor.queue

/-- The passes that were resolved before their work returned. -/
def leftover (executor : Executor Work) : List (Pass Work) :=
  executor.abandoned ++ executor.stranded

/-- The numbers of the accepted passes, those that were resolved first. -/
def accepted (executor : Executor Work) : List PassId :=
  executor.resolved.map (·.1) ++ executor.unresolved.map (·.id)

/-- Accepted passes are numbered in the order in which they are resolved, and only the last one that
was not resolved may be spared. -/
structure InLine (executor : Executor Work) : Prop where
  ascending : executor.accepted.Pairwise (· < ·)
  numbered : ∀ id ∈ executor.accepted, id < executor.nextId
  /-- A pass is spared as long as it is current. -/
  spared : ∀ pass ∈ executor.unresolved,
    pass.cancelled = false ↔ executor.current = some pass.id
  /-- The current pass is the last that was accepted, and it is not resolved. -/
  last : ∀ id, executor.current = some id →
    (executor.unresolved.map (·.id)).getLast? = some id
  closing : executor.closed = true → executor.current = none

/-- An executor whose passes stand in line, and whose worker takes them from there. -/
structure Disciplined (executor : Executor Work) : Prop extends executor.InLine where
  /-- The worker waits for a pass only while the executor is shutting down. -/
  draining : ∀ pass, executor.worker = .draining pass →
    pass.cancelled = true ∧ executor.closed = true
  gone : executor.worker = .gone → executor.closed = true ∧ executor.queue = []
  leftover : ∀ pass ∈ executor.leftover,
    pass.cancelled = true ∧ (pass.id, Outcome.superseded) ∈ executor.resolved
  apart : (executor.leftover.map (·.id)).Nodup
  /-- The passes whose work has begun were taken in their order. -/
  started : executor.started.Sublist
    (executor.resolved.map (·.1) ++ executor.worker.held.toList.map (·.id))

theorem disciplined_new (name : String) : (new name : Executor Work).Disciplined where
  ascending := List.Pairwise.nil
  numbered _ hmem := nomatch hmem
  spared _ hmem := nomatch hmem
  last _ hcurrent := nomatch hcurrent
  closing hclosed := nomatch hclosed
  draining _ hworker := nomatch hworker
  gone hworker := nomatch hworker
  leftover _ hmem := nomatch hmem
  apart := List.nodup_nil
  started := List.Sublist.refl _

variable {executor after : Executor Work}

/-- The passes whose work has begun are the one the worker has and those left over. -/
theorem begun_eq (executor : Executor Work) :
    executor.begun = executor.worker.held.toList ++ executor.leftover :=
  List.append_assoc _ _ _

theorem mem_live {pass : Pass Work} :
    pass ∈ executor.live ↔ pass ∈ executor.unresolved ∨ pass ∈ executor.leftover := by
  simp [live, unresolved, leftover, or_assoc]

namespace InLine

/-- No pass is resolved twice, and none is resolved and waiting. -/
theorem nodup (hline : executor.InLine) : executor.accepted.Nodup :=
  hline.ascending.imp fun hless => Nat.ne_of_lt hless

/-- Two passes that wait under one number are the same. -/
theorem eq_of_id (hline : executor.InLine) {first second : Pass Work}
    (hfirst : first ∈ executor.unresolved) (hsecond : second ∈ executor.unresolved)
    (hsame : first.id = second.id) : first = second :=
  List.inj_on_of_nodup_map (List.nodup_append.mp hline.nodup).2.1 hfirst hsecond hsame

/-- A pass that waits was not resolved. -/
theorem not_resolved (hline : executor.InLine) {pass : Pass Work}
    (hwaits : pass ∈ executor.unresolved) : pass.id ∉ executor.resolved.map (·.1) := by
  intro hresolved
  exact List.disjoint_of_nodup_append hline.nodup hresolved (List.mem_map_of_mem hwaits)

/-- Behind a pass that is spared nobody waits. -/
theorem getLast?_accepted (hline : executor.InLine) {pass : Pass Work}
    (hwaits : pass ∈ executor.unresolved) (hspared : pass.cancelled = false) :
    executor.accepted.getLast? = some pass.id := by
  have hlast := hline.last pass.id ((hline.spared pass hwaits).mp hspared)
  rw [accepted, List.getLast?_append, hlast]
  rfl

/-- The line does not move as long as every pass in it keeps its number and its token. -/
theorem of_same (hline : executor.InLine)
    (hids : after.unresolved.map (fun pass => (pass.id, pass.cancelled)) =
      executor.unresolved.map fun pass => (pass.id, pass.cancelled))
    (hresolved : after.resolved = executor.resolved) (hcurrent : after.current = executor.current)
    (hclosed : after.closed = executor.closed) (hnext : after.nextId = executor.nextId) :
    after.InLine := by
  have hnumbers : after.unresolved.map (·.id) = executor.unresolved.map (·.id) := by
    simpa [Function.comp_def] using congrArg (List.map Prod.fst) hids
  have haccepted : after.accepted = executor.accepted := by
    rw [accepted, hresolved, hnumbers]
    rfl
  refine ⟨haccepted ▸ hline.ascending, ?_, ?_, ?_, ?_⟩
  · rw [haccepted, hnext]
    exact hline.numbered
  · intro pass hmem
    have htoken : (pass.id, pass.cancelled) ∈
        executor.unresolved.map fun pass => (pass.id, pass.cancelled) := by
      rw [← hids]
      exact List.mem_map_of_mem hmem
    obtain ⟨before, hbefore, hsame⟩ := List.mem_map.mp htoken
    obtain ⟨hid, hcancelled⟩ := Prod.mk.inj hsame
    rw [hcurrent, ← hid, ← hcancelled]
    exact hline.spared before hbefore
  · rw [hcurrent, hnumbers]
    exact hline.last
  · rw [hcurrent, hclosed]
    exact hline.closing

/-- The front of the line is resolved, and it is not current any more. -/
theorem of_resolving (hline : executor.InLine) {pass : Pass Work} {outcome : Outcome}
    (hbefore : executor.unresolved = pass :: after.unresolved)
    (hresolved : after.resolved = executor.resolved ++ [(pass.id, outcome)])
    (hcurrent : after.current =
      if executor.current = some pass.id then none else executor.current)
    (hclosed : after.closed = executor.closed) (hnext : after.nextId = executor.nextId) :
    after.InLine := by
  have haccepted : after.accepted = executor.accepted := by
    simp [accepted, hresolved, hbefore]
  have hfront : ∀ other ∈ after.unresolved, other.id ≠ pass.id := by
    intro other hmem hsame
    have hnodup := (List.nodup_append.mp hline.nodup).2.1
    rw [hbefore, List.map_cons] at hnodup
    exact (List.nodup_cons.mp hnodup).1 (hsame ▸ List.mem_map_of_mem hmem)
  refine ⟨haccepted ▸ hline.ascending, ?_, ?_, ?_, ?_⟩
  · rw [haccepted, hnext]
    exact hline.numbered
  · intro other hmem
    rw [hline.spared other (hbefore ▸ List.mem_cons_of_mem pass hmem), hcurrent]
    by_cases hsame : executor.current = some pass.id
    · have hother := hfront other hmem
      simpa [hsame] using hother.symm
    · rw [if_neg hsame]
  · intro id hnow
    rw [hcurrent] at hnow
    by_cases hsame : executor.current = some pass.id
    · rw [if_pos hsame] at hnow
      cases hnow
    · rw [if_neg hsame] at hnow
      have hlast := hline.last id hnow
      rw [hbefore, List.map_cons, List.getLast?_cons] at hlast
      cases hrest : (after.unresolved.map (·.id)).getLast? with
      | none =>
          rw [hrest] at hlast
          exact absurd (hlast ▸ hnow) hsame
      | some final =>
          rw [hrest] at hlast
          exact hlast
  · rw [hclosed, hcurrent]
    intro hwas
    rw [hline.closing hwas]
    rfl

end InLine

/-- The worker notices that its pass was told to stop: it waits for the work, or abandons it. -/
theorem noticing_cases (executor : Executor Work) :
    ((∀ pass, executor.worker = .running pass → pass.cancelled = false) ∧
      executor.noticeCancellation = executor) ∨
    (∃ pass, executor.worker = .running pass ∧ pass.cancelled = true ∧ executor.closed = true ∧
      executor.noticeCancellation = { executor with worker := .draining pass }) ∨
    ∃ pass, executor.worker = .running pass ∧ pass.cancelled = true ∧ executor.closed = false ∧
      executor.noticeCancellation =
        { executor with
          worker := .idle
          current := if executor.current = some pass.id then none else executor.current
          abandoned := executor.abandoned ++ [pass]
          resolved := executor.resolved ++ [(pass.id, .superseded)]
          metrics := (executor.metrics.moveAbandoned 1).recordSuperseded } := by
  cases hworker : executor.worker with
  | running pass =>
      cases hcancelled : pass.cancelled with
      | false =>
          left
          refine ⟨fun other hother => ?_, by simp [noticeCancellation, hworker, hcancelled]⟩
          cases hother
          exact hcancelled
      | true =>
          right
          cases hclosed : executor.closed with
          | true =>
              left
              exact ⟨pass, rfl, hcancelled, rfl, by
                simp [noticeCancellation, hworker, hcancelled, hclosed]⟩
          | false =>
              right
              refine ⟨pass, rfl, hcancelled, rfl, ?_⟩
              simp [noticeCancellation, hworker, hcancelled, hclosed, clearCurrent_eq, supersede,
                resolve]
  | _ =>
      left
      refine ⟨fun _ hother => ?_, by simp [noticeCancellation, hworker]⟩
      cases hother

/-- A pass ends by what its work returned. -/
theorem conclude_ofResult (executor : Executor Work) (id : PassId)
    (result : Except Error Report) :
    executor.conclude id result =
      { executor with
        resolved := executor.resolved ++ [(id, .ofResult result)]
        metrics := executor.metrics.recordResult result } := by
  cases result with
  | error failure => rfl
  | ok report =>
      cases hinterrupted : report.interrupted <;>
        simp [conclude, Outcome.ofResult, PassMetrics.recordResult, hinterrupted, supersede, resolve]

/-- The pass that the worker runs is resolved by what its work returned. -/
theorem workReturned_ofResult {pass : Pass Work} (hrunning : executor.worker = .running pass)
    (result : Except Error Report) :
    ∃ metrics, executor.workReturned pass.id result =
      { executor with
        worker := .idle
        current := if executor.current = some pass.id then none else executor.current
        abandoned := executor.abandoned.filter (·.id ≠ pass.id)
        stranded := executor.stranded.filter (·.id ≠ pass.id)
        resolved := executor.resolved ++ [(pass.id, .ofResult result)]
        metrics := metrics } := by
  rw [workReturned_eq_conclude hrunning, conclude_ofResult, clearCurrent_eq]
  exact forget_eq _ pass.id

/-- The work of a pass returns: the worker runs the pass, or waits for it, or has nothing to do with
it any more. -/
theorem workReturned_cases (executor : Executor Work) (id : PassId)
    (result : Except Error Report) :
    (∃ pass, executor.worker = .running pass ∧ pass.id = id ∧
      executor.workReturned id result =
        forget { executor with
          worker := .idle
          current := if executor.current = some id then none else executor.current
          resolved := executor.resolved ++ [(id, .ofResult result)]
          metrics := executor.metrics.recordResult result } id) ∨
    (∃ pass, executor.worker = .draining pass ∧ pass.id = id ∧
      executor.workReturned id result =
        forget { executor with
          worker := .idle
          current := if executor.current = some id then none else executor.current
          resolved := executor.resolved ++ [(id, .superseded)]
          metrics := executor.metrics.recordSuperseded } id) ∨
    ((∀ pass, executor.worker.held = some pass → pass.id ≠ id) ∧
      executor.workReturned id result = executor.forget id) := by
  cases hworker : executor.worker with
  | idle => exact Or.inr (Or.inr ⟨nofun, by simp [workReturned, hworker, forget]⟩)
  | gone => exact Or.inr (Or.inr ⟨nofun, by simp [workReturned, hworker, forget]⟩)
  | running pass =>
      by_cases hsame : pass.id = id
      · refine Or.inl ⟨pass, rfl, hsame, ?_⟩
        rw [← hsame, workReturned_eq_conclude hworker, conclude_ofResult, clearCurrent_eq]
      · refine Or.inr (Or.inr ⟨fun other hheld => ?_, ?_⟩)
        · rwa [← Option.some.inj hheld]
        · simp [workReturned, hworker, hsame, forget]
  | draining pass =>
      by_cases hsame : pass.id = id
      · refine Or.inr (Or.inl ⟨pass, rfl, hsame, ?_⟩)
        unfold workReturned
        rw [hworker]
        simp only [hsame, if_true, clearCurrent_eq]
        rfl
      · refine Or.inr (Or.inr ⟨fun other hheld => ?_, ?_⟩)
        · rwa [← Option.some.inj hheld]
        · simp [workReturned, hworker, hsame, forget]

namespace Disciplined

/-- The numbers of the passes whose work has begun differ. -/
theorem distinct_begun (hdisciplined : executor.Disciplined) :
    (executor.begun.map (·.id)).Nodup := by
  rw [begun_eq, List.map_append]
  refine List.nodup_append.mpr ⟨?_, hdisciplined.apart, ?_⟩
  · cases executor.worker.held <;> simp
  · intro id hheld other hleft hsame
    obtain ⟨pass, hpass, rfl⟩ := List.mem_map.mp hheld
    obtain ⟨late, hlate, rfl⟩ := List.mem_map.mp hleft
    apply hdisciplined.not_resolved (List.mem_append_left _ hpass)
    rw [hsame]
    exact List.mem_map_of_mem (hdisciplined.leftover late hlate).2

theorem not_leftover (hdisciplined : executor.Disciplined) {pass : Pass Work}
    (hwaits : pass ∈ executor.unresolved) : pass.id ∉ executor.leftover.map (·.id) := by
  intro hleft
  obtain ⟨late, hlate, hsame⟩ := List.mem_map.mp hleft
  apply hdisciplined.not_resolved hwaits
  rw [← hsame]
  exact List.mem_map_of_mem (hdisciplined.leftover late hlate).2

/-- The worker lets go of the pass that it has, and the pass is resolved. -/
theorem resolveHeld (hdisciplined : executor.Disciplined) {pass : Pass Work}
    (hheld : executor.worker.held = some pass) (outcome : Outcome) (metrics : PassMetrics) :
    Disciplined { executor with
      worker := .idle
      current := if executor.current = some pass.id then none else executor.current
      resolved := executor.resolved ++ [(pass.id, outcome)]
      metrics := metrics } where
  toInLine := hdisciplined.of_resolving (by rw [unresolved, hheld]; rfl) rfl rfl rfl rfl
  draining _ hworker := nomatch hworker
  gone hworker := nomatch hworker
  leftover late hlate := by
    obtain ⟨hcancelled, hresolved⟩ := hdisciplined.leftover late hlate
    exact ⟨hcancelled, List.mem_append_left _ hresolved⟩
  apart := hdisciplined.apart
  started := by
    have hstarted := hdisciplined.started
    rw [hheld] at hstarted
    simpa [Worker.held] using hstarted

/-- Which passes are left over is nobody's concern, as long as they were told to stop and
superseded. -/
theorem withLeftover (hdisciplined : executor.Disciplined) {abandoned stranded : List (Pass Work)}
    (hleft : ∀ pass ∈ abandoned ++ stranded,
      pass.cancelled = true ∧ (pass.id, Outcome.superseded) ∈ executor.resolved)
    (hapart : ((abandoned ++ stranded).map (·.id)).Nodup) (metrics : PassMetrics) :
    Disciplined { executor with
      abandoned := abandoned
      stranded := stranded
      metrics := metrics } where
  toInLine := hdisciplined.of_same rfl rfl rfl rfl rfl
  draining := hdisciplined.draining
  gone := hdisciplined.gone
  leftover := hleft
  apart := hapart
  started := hdisciplined.started

theorem forget (hdisciplined : executor.Disciplined) (id : PassId) :
    (executor.forget id).Disciplined := by
  obtain ⟨metrics, h⟩ := executor.forget_eq id
  have hkept : ((executor.abandoned.filter (·.id ≠ id)) ++
      executor.stranded.filter (·.id ≠ id)).Sublist executor.leftover :=
    List.filter_sublist.append List.filter_sublist
  rw [h]
  apply hdisciplined.withLeftover
  · intro pass hmem
    exact hdisciplined.leftover pass (hkept.subset hmem)
  · exact hdisciplined.apart.sublist (hkept.map _)

theorem takeNext (hdisciplined : executor.Disciplined) : executor.takeNext.Disciplined := by
  rcases takeNext_cases executor with h | ⟨pass, rest, hidle, hqueue, hcancelled, h⟩ |
    ⟨pass, rest, hidle, hqueue, -, h⟩
  · rw [h]
    exact hdisciplined
  · have hwaits : executor.unresolved = pass :: rest := by
      simp [unresolved, hidle, hqueue, Worker.held]
    have hafter : (supersede { executor with queue := rest } pass.id).unresolved = rest := by
      simp [unresolved, supersede, resolve, hidle, Worker.held]
    have hother : executor.current ≠ some pass.id := by
      intro hcurrent
      have hspared := (hdisciplined.spared pass (by simp [hwaits])).mpr hcurrent
      exact Bool.false_ne_true (hspared.symm.trans hcancelled)
    rw [h]
    exact
      { toInLine := hdisciplined.of_resolving (by rw [hwaits, hafter]) rfl (if_neg hother).symm rfl rfl
        draining := hdisciplined.draining
        gone := fun hgone => by cases hidle.symm.trans hgone
        leftover := fun late hlate => by
          obtain ⟨hstopped, hresolved⟩ := hdisciplined.leftover late hlate
          exact ⟨hstopped, List.mem_append_left _ hresolved⟩
        apart := hdisciplined.apart
        started := by
          have hstarted := hdisciplined.started
          rw [hidle] at hstarted
          simp only [supersede, resolve, hidle, Worker.held, Option.toList, List.map_nil,
            List.append_nil, List.map_append] at hstarted ⊢
          exact hstarted.trans (List.sublist_append_left _ _) }
  · rw [h]
    exact
      { toInLine := hdisciplined.of_same
          (by simp [unresolved, hidle, hqueue, Worker.held]) rfl rfl rfl rfl
        draining := fun _ hdraining => by cases hdraining
        gone := fun hgone => by cases hgone
        leftover := hdisciplined.leftover
        apart := hdisciplined.apart
        started := by
          have hstarted := hdisciplined.started
          rw [hidle] at hstarted
          simpa [Worker.held] using hstarted }

theorem noticeCancellation (hdisciplined : executor.Disciplined) :
    executor.noticeCancellation.Disciplined := by
  rcases noticing_cases executor with ⟨-, h⟩ | ⟨pass, hrunning, hcancelled, hclosed, h⟩ |
    ⟨pass, hrunning, hcancelled, hopen, h⟩
  · rw [h]
    exact hdisciplined
  · rw [h]
    exact
      { toInLine := hdisciplined.of_same
          (by simp [unresolved, hrunning, Worker.held]) rfl rfl rfl rfl
        draining := fun other hother => by
          cases hother
          exact ⟨hcancelled, hclosed⟩
        gone := nofun
        leftover := hdisciplined.leftover
        apart := hdisciplined.apart
        started := by simpa [hrunning, Worker.held] using hdisciplined.started }
  · have hheld : executor.worker.held = some pass := by rw [hrunning]; rfl
    have hwaits : pass ∈ executor.unresolved := by simp [unresolved, hheld]
    have hnew := hdisciplined.not_leftover hwaits
    have hresolved := hdisciplined.resolveHeld hheld .superseded executor.metrics
    rw [h]
    apply hresolved.withLeftover
    · intro late hlate
      rcases List.mem_append.mp hlate with hleft | hstranded
      · rcases List.mem_append.mp hleft with hbefore | hnow
        · exact hresolved.leftover late (List.mem_append_left _ hbefore)
        · obtain rfl := List.mem_singleton.mp hnow
          exact ⟨hcancelled, List.mem_append_right _ List.mem_cons_self⟩
      · exact hresolved.leftover late (List.mem_append_right _ hstranded)
    · have hperm : (executor.abandoned ++ [pass] ++ executor.stranded).Perm
          (pass :: executor.leftover) := by
        rw [List.append_assoc]
        exact List.perm_middle
      rw [(hperm.map _).nodup_iff]
      exact List.nodup_cons.mpr ⟨hnew, hdisciplined.apart⟩

theorem workReturned (hdisciplined : executor.Disciplined) (id : PassId)
    (result : Except Error Report) : (executor.workReturned id result).Disciplined := by
  rcases workReturned_cases executor id result with ⟨pass, hrunning, rfl, h⟩ |
    ⟨pass, hdraining, rfl, h⟩ | ⟨-, h⟩
  · rw [h]
    apply forget
    exact hdisciplined.resolveHeld (by rw [hrunning]; rfl) _ _
  · rw [h]
    apply forget
    exact hdisciplined.resolveHeld (by rw [hdraining]; rfl) _ _
  · rw [h]
    exact hdisciplined.forget id

end Disciplined

theorem held_setWork (executor : Executor Work) (id : PassId) (work : Work) :
    (executor.setWork id work).worker.held = executor.worker.held.map (Pass.withWork id work) := by
  cases hworker : executor.worker <;> simp [setWork, hworker, Worker.held]

theorem unresolved_setWork (executor : Executor Work) (id : PassId) (work : Work) :
    (executor.setWork id work).unresolved = executor.unresolved.map (Pass.withWork id work) := by
  rw [unresolved, held_setWork]
  cases hheld : executor.worker.held <;> simp [unresolved, hheld, setWork]

theorem leftover_setWork (executor : Executor Work) (id : PassId) (work : Work) :
    (executor.setWork id work).leftover = executor.leftover.map (Pass.withWork id work) := by
  simp [leftover, setWork]

namespace Disciplined

theorem setWork (hdisciplined : executor.Disciplined) (id : PassId) (work : Work) :
    (executor.setWork id work).Disciplined where
  toInLine := by
    refine hdisciplined.of_same ?_ rfl rfl rfl rfl
    rw [unresolved_setWork, List.map_map]
    exact List.map_congr_left fun pass _ => by simp
  draining pass hworker := by
    cases hbefore : executor.worker with
    | draining before =>
        simp only [Executor.setWork, hbefore, Worker.draining.injEq] at hworker
        rw [← hworker, Pass.cancelled_withWork]
        exact hdisciplined.draining before hbefore
    | _ => simp [Executor.setWork, hbefore] at hworker
  gone hworker := by
    cases hbefore : executor.worker with
    | gone =>
        obtain ⟨hclosed, hqueue⟩ := hdisciplined.gone hbefore
        exact ⟨hclosed, by simp [Executor.setWork, hqueue]⟩
    | _ => simp [Executor.setWork, hbefore] at hworker
  leftover pass hmem := by
    rw [leftover_setWork] at hmem
    obtain ⟨before, hbefore, rfl⟩ := List.mem_map.mp hmem
    rw [Pass.id_withWork, Pass.cancelled_withWork]
    exact hdisciplined.leftover before hbefore
  apart := by
    rw [leftover_setWork, List.map_map]
    simpa [Function.comp_def] using hdisciplined.apart
  started := by
    rw [held_setWork]
    have hstarted := hdisciplined.started
    cases hheld : executor.worker.held <;> simpa [Executor.setWork, hheld] using hstarted

theorem goOn {World : Type} (hdisciplined : executor.Disciplined) (step : GoOn Work World)
    (pass : Pass Work) (world : World) : (executor.goOn step pass world).1.Disciplined := by
  unfold Executor.goOn
  split
  · exact hdisciplined.setWork _ _
  · exact hdisciplined.workReturned _ _

end Disciplined

/-- The current pass is told to stop, and then nobody in the line is spared. -/
theorem Disciplined.unresolved_cancelCurrent (hdisciplined : executor.Disciplined) :
    executor.cancelCurrent.2.unresolved = executor.unresolved.map Pass.stop := by
  cases hcurrent : executor.current with
  | none =>
      have hstopped : ∀ pass ∈ executor.unresolved, pass.stop = pass := by
        intro pass hmem
        apply Pass.stop_of_cancelled
        apply eq_true_of_ne_false
        intro hspared
        have hnow := (hdisciplined.spared pass hmem).mp hspared
        rw [hcurrent] at hnow
        cases hnow
      rw [List.map_congr_left hstopped, List.map_id']
      simp [Executor.cancelCurrent, hcurrent]
  | some id =>
      have htold : ∀ pass ∈ executor.unresolved, pass.tellToStop id = pass.stop := by
        intro pass hmem
        cases hcancelled : pass.cancelled with
        | false =>
            have hnow := (hdisciplined.spared pass hmem).mp hcancelled
            exact if_pos (Option.some.inj (hnow.symm.trans hcurrent))
        | true => rw [Pass.tellToStop_of_cancelled hcancelled, Pass.stop_of_cancelled hcancelled]
      rw [← List.map_congr_left htold]
      cases hworker : executor.worker with
      | draining pass =>
          have hcancelled := (hdisciplined.draining pass hworker).1
          simp [unresolved, Executor.cancelCurrent, hcurrent, Executor.tellToStop, hworker,
            Worker.held, Pass.tellToStop_of_cancelled hcancelled]
      | _ =>
          simp [unresolved, Executor.cancelCurrent, hcurrent, Executor.tellToStop, hworker,
            Worker.held]

/-- Telling the current pass to stop moves no pass to another place. -/
theorem cancelCurrent_eq (executor : Executor Work) :
    ∃ worker queue, executor.cancelCurrent.2 =
        { executor with worker := worker, queue := queue, current := none } ∧
      queue.length = executor.queue.length ∧
      (worker = executor.worker ∨
        ∃ pass id, executor.worker = .running pass ∧ worker = .running (pass.tellToStop id)) := by
  cases hcurrent : executor.current with
  | none =>
      refine ⟨executor.worker, executor.queue, ?_, rfl, Or.inl rfl⟩
      simp only [cancelCurrent, hcurrent]
      rw [← hcurrent]
  | some id =>
      refine ⟨(executor.tellToStop id).worker, executor.queue.map (Pass.tellToStop id), ?_, ?_, ?_⟩
      · simp [cancelCurrent, hcurrent, tellToStop]
      · exact List.length_map _
      · cases hworker : executor.worker with
        | running pass => exact Or.inr ⟨pass, id, rfl, by simp [tellToStop, hworker]⟩
        | _ => exact Or.inl (by simp [tellToStop, hworker])

theorem Disciplined.accepted_cancelCurrent (hdisciplined : executor.Disciplined) :
    executor.cancelCurrent.2.accepted = executor.accepted := by
  have hids : executor.cancelCurrent.2.unresolved.map (·.id) = executor.unresolved.map (·.id) := by
    rw [hdisciplined.unresolved_cancelCurrent, List.map_map]
    rfl
  obtain ⟨worker, queue, h, -⟩ := executor.cancelCurrent_eq
  rw [accepted, hids, h]
  rfl

theorem Disciplined.cancelCurrent (hdisciplined : executor.Disciplined) :
    executor.cancelCurrent.2.Disciplined := by
  have hwaits := hdisciplined.unresolved_cancelCurrent
  have haccepted := hdisciplined.accepted_cancelCurrent
  obtain ⟨worker, queue, h, hlength, hworker⟩ := executor.cancelCurrent_eq
  refine ⟨⟨haccepted ▸ hdisciplined.ascending, ?_, ?_, ?_, ?_⟩, ?_, ?_, ?_, ?_, ?_⟩
  · rw [haccepted, h]
    exact hdisciplined.numbered
  · intro pass hmem
    rw [hwaits] at hmem
    obtain ⟨before, -, rfl⟩ := List.mem_map.mp hmem
    rw [h]
    exact ⟨nofun, nofun⟩
  · rw [h]
    exact nofun
  · rw [h]
    exact fun _ => rfl
  · rw [h]
    intro pass hdraining
    rcases hworker with rfl | ⟨running, id, -, rfl⟩
    · exact hdisciplined.draining pass hdraining
    · cases hdraining
  · rw [h]
    intro hgone
    rcases hworker with rfl | ⟨running, id, -, rfl⟩
    · obtain ⟨hclosed, hqueue⟩ := hdisciplined.gone hgone
      rw [hqueue] at hlength
      exact ⟨hclosed, List.eq_nil_of_length_eq_zero hlength⟩
    · cases hgone
  · rw [h]
    exact hdisciplined.leftover
  · rw [h]
    exact hdisciplined.apart
  · rw [h]
    have hstarted := hdisciplined.started
    rcases hworker with rfl | ⟨running, id, hrunning, rfl⟩
    · exact hstarted
    · rw [hrunning] at hstarted
      simpa [Worker.held] using hstarted

/-- Everybody in the queue was told to stop afterwards. -/
theorem Disciplined.queue_cancelCurrent (hdisciplined : executor.Disciplined) :
    executor.cancelCurrent.2.queue = executor.queue.map Pass.stop := by
  have hwaits := hdisciplined.unresolved_cancelCurrent
  obtain ⟨worker, queue, h, hlength, -⟩ := executor.cancelCurrent_eq
  rw [h] at hwaits ⊢
  rw [unresolved, unresolved, List.map_append] at hwaits
  exact (List.append_inj' hwaits (by simpa using hlength)).2

theorem current_cancelCurrent (executor : Executor Work) :
    executor.cancelCurrent.2.current = none := by
  obtain ⟨worker, queue, h, -⟩ := executor.cancelCurrent_eq
  rw [h]

/-- What is told to stop does not depend on the gate of the executor or on its numbers. -/
theorem cancelCurrent_with (executor : Executor Work) (closed : Bool) (nextId : PassId) :
    Executor.cancelCurrent { executor with closed := closed, nextId := nextId } =
      (executor.cancelCurrent.1,
        { executor.cancelCurrent.2 with closed := closed, nextId := nextId }) := by
  cases hcurrent : executor.current <;> simp [Executor.cancelCurrent, hcurrent, tellToStop]

theorem shutdownNow_of_open (hopen : executor.closed = false) :
    executor.shutdownNow = { executor.cancelCurrent.2 with closed := true } := by
  have hnext := (cancelCurrent_places executor).2.2.1
  unfold shutdownNow
  rw [hopen, if_neg Bool.false_ne_true, cancelCurrent_with executor true executor.nextId, ← hnext]

theorem shutdownNow_of_closed (hclosed : executor.closed = true) :
    executor.shutdownNow = executor := if_pos hclosed

@[simp] theorem closed_shutdownNow (executor : Executor Work) :
    executor.shutdownNow.closed = true := by
  cases hclosed : executor.closed with
  | true => rwa [shutdownNow_of_closed hclosed]
  | false => rw [shutdownNow_of_open hclosed]

theorem Disciplined.shutdownNow (hdisciplined : executor.Disciplined) :
    executor.shutdownNow.Disciplined := by
  cases hclosed : executor.closed with
  | true => rwa [shutdownNow_of_closed hclosed]
  | false =>
      have hcancelled := hdisciplined.cancelCurrent
      rw [shutdownNow_of_open hclosed]
      exact
        { hcancelled with
          closing := fun _ => executor.current_cancelCurrent
          draining := fun pass hworker => ⟨(hcancelled.draining pass hworker).1, rfl⟩
          gone := fun hworker => ⟨rfl, (hcancelled.gone hworker).2⟩ }

/-- A closed executor only gives the number away. -/
theorem submit_of_closed (hclosed : executor.closed = true) (work : Work) :
    executor.submit work = (.error .rejected, { executor with nextId := executor.nextId + 1 }) := by
  unfold submit
  simp [hclosed]

/-- A pass joins the line and becomes the current one. -/
def join (executor : Executor Work) (work : Work) : Executor Work :=
  { executor with
    nextId := executor.nextId + 1
    current := some executor.nextId
    queue := executor.queue ++ [⟨executor.nextId, false, work⟩]
    metrics := executor.metrics.recordSubmitted }

theorem unresolved_join (executor : Executor Work) (work : Work) :
    (executor.join work).unresolved =
      executor.unresolved ++ [⟨executor.nextId, false, work⟩] :=
  (List.append_assoc _ _ _).symm

theorem accepted_join (executor : Executor Work) (work : Work) :
    (executor.join work).accepted = executor.accepted ++ [executor.nextId] := by
  rw [accepted, accepted, unresolved_join]
  simp [join]

/-- An open executor accepts every pass, behind those that are told to stop. -/
theorem Disciplined.submit_of_open (hdisciplined : executor.Disciplined)
    (hopen : executor.closed = false) (work : Work) :
    executor.submit work = (.ok executor.nextId, executor.cancelCurrent.2.join work) := by
  obtain ⟨hclosed, -, hnext, -⟩ := cancelCurrent_places executor
  have hstays : executor.cancelCurrent.2.worker ≠ .gone := by
    intro hgone
    have hnow := (hdisciplined.cancelCurrent.gone hgone).1
    rw [hclosed, hopen] at hnow
    cases hnow
  have h := cancelCurrent_with executor executor.closed (executor.nextId + 1)
  unfold Executor.submit
  dsimp only
  rw [if_neg (ne_true_of_eq_false hopen), h]
  split
  · next hgone => exact absurd hgone hstays
  · rw [join, hnext, ← hclosed]

/-- A new pass joins a line in which nobody is spared. -/
theorem Disciplined.join (hdisciplined : executor.Disciplined)
    (hopen : executor.closed = false) (hnobody : executor.current = none) (work : Work) :
    (executor.join work).Disciplined := by
  refine ⟨⟨?_, ?_, ?_, ?_, ?_⟩, hdisciplined.draining, ?_, hdisciplined.leftover,
    hdisciplined.apart, hdisciplined.started⟩
  · rw [accepted_join]
    refine List.pairwise_append.mpr ⟨hdisciplined.ascending, List.pairwise_singleton _ _, ?_⟩
    intro id hmem next hnext
    rw [List.mem_singleton.mp hnext]
    exact hdisciplined.numbered id hmem
  · rw [accepted_join]
    intro id hmem
    rcases List.mem_append.mp hmem with hbefore | hnow
    · exact Nat.lt_succ_of_lt (hdisciplined.numbered id hbefore)
    · rw [List.mem_singleton.mp hnow]
      exact Nat.lt_succ_self _
  · rw [unresolved_join]
    intro pass hmem
    rcases List.mem_append.mp hmem with hbefore | hnow
    · have hstopped := hdisciplined.spared pass hbefore
      have hless := hdisciplined.numbered pass.id
        (List.mem_append_right _ (List.mem_map_of_mem hbefore))
      rw [hnobody] at hstopped
      rw [hstopped]
      exact ⟨nofun, fun hsame => absurd (Option.some.inj hsame).symm (Nat.ne_of_lt hless)⟩
    · rw [List.mem_singleton.mp hnow]
      exact ⟨fun _ => rfl, fun _ => rfl⟩
  · rw [unresolved_join]
    intro id hnow
    rw [← hnow, List.map_append]
    exact List.getLast?_concat
  · intro hclosed
    exact absurd hclosed (ne_true_of_eq_false hopen)
  · intro hgone
    exact absurd (hdisciplined.gone hgone).1 (ne_true_of_eq_false hopen)

theorem Disciplined.submit (hdisciplined : executor.Disciplined) (work : Work) :
    (executor.submit work).2.Disciplined := by
  cases hclosed : executor.closed with
  | true =>
      rw [submit_of_closed hclosed]
      exact
        { hdisciplined with
          numbered := fun id hmem => Nat.lt_succ_of_lt (hdisciplined.numbered id hmem) }
  | false =>
      have hplace := (cancelCurrent_places executor).1
      rw [hdisciplined.submit_of_open hclosed]
      exact hdisciplined.cancelCurrent.join (hplace.trans hclosed) executor.current_cancelCurrent work

/-- Nobody is spared by an executor that is shutting down. -/
theorem InLine.cancelled_of_closed (hline : executor.InLine) (hclosed : executor.closed = true)
    {pass : Pass Work} (hwaits : pass ∈ executor.unresolved) : pass.cancelled = true := by
  apply eq_true_of_ne_false
  intro hspared
  have hnow := (hline.spared pass hwaits).mp hspared
  rw [hline.closing hclosed] at hnow
  cases hnow

theorem accepted_dismissWorker (executor : Executor Work) :
    executor.dismissWorker.accepted = executor.accepted := by
  simp [accepted, unresolved, dismissWorker, Worker.held, Function.comp_def]

/-- The worker is dismissed only while the executor is shutting down. -/
theorem Disciplined.dismissWorker (hdisciplined : executor.Disciplined)
    (hclosed : executor.closed = true) : executor.dismissWorker.Disciplined := by
  have haccepted := executor.accepted_dismissWorker
  have hleft : executor.dismissWorker.leftover.Perm
      (executor.worker.held.toList ++ executor.leftover) := by
    rw [Executor.leftover, Executor.leftover, Executor.dismissWorker, ← List.append_assoc]
    exact List.perm_append_comm
  have hdistinct := hdisciplined.distinct_begun
  rw [begun_eq] at hdistinct
  have hnobody := hdisciplined.closing hclosed
  refine ⟨⟨haccepted ▸ hdisciplined.ascending, ?_, nofun, ?_, hdisciplined.closing⟩, nofun,
    fun _ => ⟨hclosed, rfl⟩, ?_, ?_, ?_⟩
  · rw [haccepted]
    exact hdisciplined.numbered
  · intro id hnow
    cases hnobody.symm.trans hnow
  · intro pass hmem
    rcases List.mem_append.mp (hleft.subset hmem) with hheld | hbefore
    · refine ⟨hdisciplined.cancelled_of_closed hclosed (List.mem_append_left _ hheld), ?_⟩
      exact List.mem_append_right _ (List.mem_map.mpr ⟨pass, List.mem_append_left _ hheld, rfl⟩)
    · obtain ⟨hcancelled, hresolved⟩ := hdisciplined.leftover pass hbefore
      exact ⟨hcancelled, List.mem_append_left _ hresolved⟩
  · rw [(hleft.map _).nodup_iff]
    exact hdistinct
  · refine hdisciplined.started.trans ?_
    simp [Executor.dismissWorker, Worker.held, Function.comp_def]

/-- A pass that is resolved has an outcome, if perhaps an earlier one. -/
theorem exists_outcomeOf {id : PassId} {outcome : Outcome}
    (hresolved : after.resolved = executor.resolved ++ [(id, outcome)]) :
    ∃ first, after.outcomeOf id = some first := by
  apply Option.ne_none_iff_exists'.mp
  intro hnone
  have happart := List.lookup_eq_none_iff.mp hnone (id, outcome)
  simp [hresolved] at happart

/-- A pass that was not resolved before has the outcome with which it is resolved now. -/
theorem outcomeOf_of_fresh {id : PassId} {outcome : Outcome}
    (hfresh : id ∉ executor.resolved.map (·.1))
    (hresolved : after.resolved = executor.resolved ++ [(id, outcome)]) :
    after.outcomeOf id = some outcome := by
  apply List.lookup_eq_some_iff.mpr
  refine ⟨executor.resolved, [], hresolved, fun other hmem => ?_⟩
  rw [bne_iff_ne]
  intro hsame
  exact hfresh (hsame ▸ List.mem_map_of_mem hmem)

/-- A pass has the outcome with which it was resolved. -/
theorem Disciplined.outcomeOf_of_mem (hdisciplined : executor.Disciplined) {id : PassId}
    {outcome : Outcome} (hended : (id, outcome) ∈ executor.resolved) :
    executor.outcomeOf id = some outcome := by
  obtain ⟨early, late, hsplit⟩ := List.append_of_mem hended
  have hdistinct := (List.nodup_append.mp hdisciplined.nodup).1
  rw [hsplit, List.map_append, List.map_cons] at hdistinct
  apply List.lookup_eq_some_iff.mpr
  refine ⟨early, late, hsplit, fun other hmem => ?_⟩
  have happart := List.disjoint_of_nodup_append hdistinct (List.mem_map_of_mem hmem)
  simp only [bne_iff_ne, ne_eq]
  intro hsame
  exact happart (hsame ▸ List.mem_cons_self)

theorem Disciplined.outcomeOf_of_waits (hdisciplined : executor.Disciplined) {pass : Pass Work}
    (hwaits : pass ∈ executor.unresolved) : executor.outcomeOf pass.id = none := by
  apply List.lookup_eq_none_iff.mpr
  intro other hmem
  have happart := hdisciplined.not_resolved hwaits
  simp only [bne_iff_ne, ne_eq]
  intro hsame
  exact happart (hsame ▸ List.mem_map_of_mem hmem)

end Executor

end Custody
