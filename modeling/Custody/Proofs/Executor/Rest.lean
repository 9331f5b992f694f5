/-
# Coming to rest

An executor comes to rest in single strides: the worker takes the next pass, it notices a
cancellation, or the work of a pass that has begun goes on.  What every stride keeps is kept by the
whole.

When the work of the passes is settled beforehand, nothing can go on afterwards: work that was begun
is held up, the worker has let go of every pass that was told to stop unless the executor is shutting
down, and the queue is empty unless the worker is held up.
-/

import Mathlib.Logic.Relation
import Custody.Executor.Session
import Custody.Proofs.Executor.Discipline

namespace Custody

namespace Executor

variable {Work World : Type} {executor after : Executor Work}

/-- One stride of an executor and its surroundings. -/
inductive Stride (step : GoOn Work World) : Executor Work × World → Executor Work × World → Prop
  | takeNext (executor : Executor Work) (world : World) :
      Stride step (executor, world) (executor.takeNext, world)
  | noticeCancellation (executor : Executor Work) (world : World) :
      Stride step (executor, world) (executor.noticeCancellation, world)
  | goOn {executor : Executor Work} {pass : Pass Work} (world : World)
      (hbegun : pass ∈ executor.begun) :
      Stride step (executor, world) (executor.goOn step pass world)

/-- Any number of strides. -/
abbrev Strides (step : GoOn Work World) : Executor Work × World → Executor Work × World → Prop :=
  Relation.ReflTransGen (Stride step)

theorem Stride.disciplined {step : GoOn Work World} {before later : Executor Work × World}
    (hstride : Stride step before later) (hdisciplined : before.1.Disciplined) :
    later.1.Disciplined := by
  cases hstride with
  | takeNext => exact hdisciplined.takeNext
  | noticeCancellation => exact hdisciplined.noticeCancellation
  | goOn => exact hdisciplined.goOn step _ _

theorem Strides.disciplined {step : GoOn Work World} {before later : Executor Work × World}
    (hstrides : Strides step before later) (hdisciplined : before.1.Disciplined) :
    later.1.Disciplined := by
  induction hstrides with
  | refl => exact hdisciplined
  | tail _ hstride ih => exact hstride.disciplined ih

/-- The numbers of the passes whose work has not returned differ. -/
theorem Disciplined.distinct_live (hdisciplined : executor.Disciplined) :
    (executor.live.map (·.id)).Nodup := by
  have hlive : executor.live = executor.unresolved ++ executor.leftover := by
    simp [live, unresolved, Executor.leftover]
  rw [hlive, List.map_append]
  apply List.Nodup.append
  · exact (List.nodup_append.mp hdisciplined.nodup).2.1
  · exact hdisciplined.apart
  · intro id hwaits hleft
    obtain ⟨pass, hpass, rfl⟩ := List.mem_map.mp hwaits
    exact hdisciplined.not_leftover hpass hleft

theorem mem_live_of_begun {pass : Pass Work} (hbegun : pass ∈ executor.begun) :
    pass ∈ executor.live := by
  simp only [begun, live, List.mem_append] at hbegun ⊢
  tauto

/-- Two passes whose work has begun under one number are the same. -/
theorem Disciplined.begun_of_id (hdisciplined : executor.Disciplined) {first second : Pass Work}
    (hfirst : first ∈ executor.begun) (hsecond : second ∈ executor.begun)
    (hsame : first.id = second.id) : first = second :=
  List.inj_on_of_nodup_map hdisciplined.distinct_begun hfirst hsecond hsame

theorem leftover_forget (executor : Executor Work) (id : PassId) :
    (executor.forget id).leftover = executor.leftover.filter (·.id ≠ id) := by
  obtain ⟨metrics, h⟩ := executor.forget_eq id
  rw [h]
  exact (List.filter_append ..).symm

theorem worker_forget (executor : Executor Work) (id : PassId) :
    (executor.forget id).worker = executor.worker := by
  obtain ⟨metrics, h⟩ := executor.forget_eq id
  rw [h]

theorem queue_forget (executor : Executor Work) (id : PassId) :
    (executor.forget id).queue = executor.queue := by
  obtain ⟨metrics, h⟩ := executor.forget_eq id
  rw [h]

theorem leftover_workReturned (executor : Executor Work) (id : PassId)
    (result : Except Error Report) :
    (executor.workReturned id result).leftover = executor.leftover.filter (·.id ≠ id) := by
  rcases workReturned_cases executor id result with ⟨pass, -, -, h⟩ | ⟨pass, -, -, h⟩ | ⟨-, h⟩
  · rw [h, leftover_forget]
    rfl
  · rw [h, leftover_forget]
    rfl
  · rw [h, leftover_forget]

theorem queue_workReturned (executor : Executor Work) (id : PassId)
    (result : Except Error Report) : (executor.workReturned id result).queue = executor.queue := by
  rcases workReturned_cases executor id result with ⟨pass, -, -, h⟩ | ⟨pass, -, -, h⟩ | ⟨-, h⟩
  · rw [h, queue_forget]
  · rw [h, queue_forget]
  · rw [h, queue_forget]

/-- The worker lets go of the pass whose work returns, and of no other. -/
theorem worker_workReturned (executor : Executor Work) (id : PassId)
    (result : Except Error Report) :
    (∃ pass, executor.worker.held = some pass ∧ pass.id = id ∧
      (executor.workReturned id result).worker = .idle) ∨
    ((∀ pass, executor.worker.held = some pass → pass.id ≠ id) ∧
      (executor.workReturned id result).worker = executor.worker) := by
  rcases workReturned_cases executor id result with ⟨pass, hrunning, hid, h⟩ |
    ⟨pass, hdraining, hid, h⟩ | ⟨hother, h⟩
  · exact Or.inl ⟨pass, by rw [hrunning]; rfl, hid, by rw [h, worker_forget]⟩
  · exact Or.inl ⟨pass, by rw [hdraining]; rfl, hid, by rw [h, worker_forget]⟩
  · exact Or.inr ⟨hother, by rw [h, worker_forget]⟩

/-- What becomes of one pass does not touch another whose work has begun. -/
theorem mem_begun_goOn {pass other : Pass Work} (hother : other ∈ executor.begun)
    (hapart : other.id ≠ pass.id) (step : GoOn Work World) (world : World) :
    other ∈ (executor.goOn step pass world).1.begun := by
  unfold goOn
  split
  · exact mem_begun_setWork_of_ne hother hapart _
  · next result _ _ =>
      rw [begun_eq, List.mem_append] at hother
      rw [begun_eq, List.mem_append, leftover_workReturned]
      rcases hother with hheld | hleft
      · left
        rcases worker_workReturned executor pass.id result with ⟨held, hwas, hid, -⟩ | ⟨-, hsame⟩
        · rw [hwas, Option.toList_some, List.mem_singleton] at hheld
          exact absurd (hheld ▸ hid) hapart
        · rwa [hsame]
      · exact Or.inr (List.mem_filter.mpr ⟨hleft, decide_eq_true hapart⟩)

/-- Going on with several passes one after the other is a number of strides. -/
theorem strides_foldl (step : GoOn Work World) :
    ∀ {passes : List (Pass Work)} {executor : Executor Work} (world : World),
      (passes.map (·.id)).Nodup → (∀ pass ∈ passes, pass ∈ executor.begun) →
      Strides step (executor, world)
        (passes.foldl (fun state pass => goOn step pass state.1 state.2) (executor, world))
  | [], _, _, _, _ => Relation.ReflTransGen.refl
  | pass :: rest, executor, world, hdistinct, hbegun => by
      rw [List.map_cons, List.nodup_cons] at hdistinct
      obtain ⟨hfront, hrest⟩ := hdistinct
      have hstride : Stride step (executor, world) (executor.goOn step pass world) :=
        .goOn world (hbegun pass List.mem_cons_self)
      apply Relation.ReflTransGen.head hstride
      apply strides_foldl step _ hrest
      intro other hother
      apply mem_begun_goOn (hbegun other (List.mem_cons_of_mem pass hother))
      intro hsame
      exact hfront (hsame ▸ List.mem_map_of_mem hother)

theorem strides_goOnUnattended (step : GoOn Work World) (hdisciplined : executor.Disciplined)
    (world : World) : Strides step (executor, world) (executor.goOnUnattended step world) := by
  apply strides_foldl step world hdisciplined.apart
  intro pass hmem
  rw [begun_eq]
  exact List.mem_append_right _ hmem

theorem strides_attend (step : GoOn Work World) (executor : Executor Work) (world : World) :
    Strides step (executor, world) (executor.attend step world) := by
  have hnotice : Strides step (executor, world) (executor.noticeCancellation, world) :=
    .single (.noticeCancellation executor world)
  unfold attend
  dsimp only
  split
  · next pass hheld =>
      apply hnotice.tail
      apply Stride.goOn
      simp [begun, hheld]
  · exact hnotice

theorem strides_attendAll (step : GoOn Work World) :
    ∀ (further : Nat) (executor : Executor Work) (world : World),
      Strides step (executor, world) (executor.attendAll step further world)
  | 0, executor, world => strides_attend step executor world
  | further + 1, executor, world =>
      ((strides_attend step executor world).tail (.takeNext _ _)).trans
        (strides_attendAll step further _ _)

theorem strides_settle (step : GoOn Work World) (hdisciplined : executor.Disciplined)
    (world : World) : Strides step (executor, world) (executor.settle step world) := by
  unfold settle
  dsimp only
  generalize hfirst : executor.goOnUnattended step world = first
  have hstart : Strides step (executor, world) first :=
    hfirst ▸ strides_goOnUnattended step hdisciplined world
  have hattended : Strides step (executor, world)
      (first.1.attendAll step first.1.queue.length first.2) :=
    hstart.trans (strides_attendAll step _ _ _)
  exact hattended.trans
    (strides_goOnUnattended step (Strides.disciplined hattended hdisciplined) _)

end Executor

namespace Executor

variable {Work World : Type} {executor : Executor Work}

/-- An executor that is open and idle, with no work left anywhere. -/
structure Vacant (executor : Executor Work) : Prop where
  isOpen : executor.closed = false
  idle : executor.worker = .idle
  drained : executor.live = []

namespace Vacant

theorem queue (hvacant : executor.Vacant) : executor.queue = [] := by
  have hdrained := hvacant.drained
  simp only [live, List.append_eq_nil_iff] at hdrained
  exact hdrained.1.1.2

theorem abandoned (hvacant : executor.Vacant) : executor.abandoned = [] := by
  have hdrained := hvacant.drained
  simp only [live, List.append_eq_nil_iff] at hdrained
  exact hdrained.1.2

theorem stranded (hvacant : executor.Vacant) : executor.stranded = [] := by
  have hdrained := hvacant.drained
  simp only [live, List.append_eq_nil_iff] at hdrained
  exact hdrained.2

/-- Nobody is told to stop; at most the number of a pass is forgotten that is long over. -/
theorem cancelCurrent_eq (hvacant : executor.Vacant) :
    executor.cancelCurrent.2 = { executor with current := none } := by
  unfold cancelCurrent
  split
  · simp only [tellToStop, hvacant.idle, hvacant.queue, List.map_nil]
  · next hnobody => rw [← hnobody]

theorem cancelCurrent (hvacant : executor.Vacant) : executor.cancelCurrent.2.Vacant := by
  rw [hvacant.cancelCurrent_eq]
  exact ⟨hvacant.isOpen, hvacant.idle, hvacant.drained⟩

/-- A vacant executor is at rest. -/
theorem settle (hvacant : executor.Vacant) (step : GoOn Work World) (world : World) :
    executor.settle step world = (executor, world) := by
  have hunattended : executor.goOnUnattended step world = (executor, world) := by
    simp [goOnUnattended, hvacant.abandoned, hvacant.stranded]
  have hattended : executor.attendAll step 0 world = (executor, world) := by
    simp [attendAll, attend, noticeCancellation, hvacant.idle, Worker.held]
  unfold Executor.settle
  rw [hunattended]
  dsimp only
  rw [hvacant.queue, List.length_nil, hattended]
  exact hunattended

/-- A vacant executor accepts a pass as the only one. -/
theorem submit_eq (hvacant : executor.Vacant) (work : Work) :
    executor.submit work = (.ok executor.nextId, executor.cancelCurrent.2.join work) := by
  have h := cancelCurrent_with executor executor.closed (executor.nextId + 1)
  unfold Executor.submit
  dsimp only
  rw [if_neg (ne_true_of_eq_false hvacant.isOpen), h, hvacant.cancelCurrent_eq]
  simp [hvacant.idle, join]

/-- A pass whose work returns at once is over when the executor has come to rest. -/
theorem settle_join (hvacant : executor.Vacant) {step : GoOn Work World} {work : Work}
    {result : Except Error Report} {world later : World}
    (hreturns : step false work world = (.inr result, later)) :
    ∃ after, (executor.join work).settle step world = (after, later) ∧ after.Vacant ∧
      after.resolved = executor.resolved ++ [(executor.nextId, .ofResult result)] := by
  have hunattended : (executor.join work).goOnUnattended step world =
      (executor.join work, world) := by
    simp [goOnUnattended, join, hvacant.abandoned, hvacant.stranded]
  have hfirst : (executor.join work).attend step world = (executor.join work, world) := by
    simp [attend, noticeCancellation, join, hvacant.idle, Worker.held]
  let pass : Pass Work := ⟨executor.nextId, false, work⟩
  let running : Executor Work :=
    { executor.join work with
      queue := [], worker := .running pass, started := executor.started ++ [pass.id] }
  have htaken : (executor.join work).takeNext = running := by
    simp [takeNext, join, hvacant.idle, hvacant.queue, running, pass]
  have hreturned : running.attend step world = (running.workReturned pass.id result, later) := by
    have hnotice : running.noticeCancellation = running := rfl
    have hgoOn : running.goOn step pass world = (running.workReturned pass.id result, later) := by
      unfold goOn
      rw [show step pass.cancelled pass.work world = _ from hreturns]
    unfold attend
    rw [hnotice]
    exact hgoOn
  obtain ⟨metrics, hafter⟩ := workReturned_ofResult
    (show running.worker = .running pass from rfl) result
  have hvacated : (running.workReturned pass.id result).Vacant := by
    rw [hafter]
    refine ⟨hvacant.isOpen, rfl, ?_⟩
    simp [live, Worker.held, running, join, hvacant.abandoned, hvacant.stranded]
  refine ⟨running.workReturned pass.id result, ?_, hvacated, ?_⟩
  · unfold Executor.settle
    rw [hunattended]
    dsimp only
    have hone : (executor.join work).queue.length = 1 := by simp [join, hvacant.queue]
    rw [hone, attendAll, hfirst]
    dsimp only
    rw [attendAll, htaken, hreturned]
    simp [goOnUnattended, hvacated.abandoned, hvacated.stranded]
  · rw [hafter]
    rfl

end Vacant

end Executor

namespace ScriptedWork

/-- The work is held up: it goes on when it is released, or perhaps when its pass is told to
stop. -/
def Waits (work : ScriptedWork) (cancelled : Bool) : Prop :=
  work.released = false ∧
    (work.hold = some .untilReleased ∨ work.hold = some .untilCancelled ∧ cancelled = false)

/-- Work that is not held up returns, and what it returns is its own unless it was interrupted. -/
theorem goOn_cases (work : ScriptedWork) (cancelled : Bool) :
    (work.Waits cancelled ∧ goOn cancelled work () = (.inl work, ())) ∨
    (¬ work.Waits cancelled ∧ ∃ result, goOn cancelled work () = (.inr result, ()) ∧
      (cancelled = false → result = work.result)) := by
  cases hreleased : work.released with
  | true =>
      refine Or.inr ⟨by simp [Waits, hreleased], work.result, by simp [goOn, hreleased], fun _ => rfl⟩
  | false =>
      cases hhold : work.hold with
      | none =>
          refine Or.inr ⟨by simp [Waits, hhold], work.result, ?_, fun _ => rfl⟩
          simp [goOn, hreleased, hhold]
      | some hold =>
          cases hold with
          | untilReleased => exact Or.inl (by simp [Waits, goOn, hreleased, hhold])
          | untilCancelled =>
              cases cancelled with
              | false => exact Or.inl (by simp [Waits, goOn, hreleased, hhold])
              | true =>
                  refine Or.inr ⟨by simp [Waits, hhold], .ok { interrupted := true }, ?_, nofun⟩
                  simp [goOn, hreleased, hhold]

end ScriptedWork

/-- The work of a pass is held up. -/
def Pass.Waits (pass : Pass ScriptedWork) : Prop := pass.work.Waits pass.cancelled

namespace Executor

variable {executor : Executor ScriptedWork} {pass : Pass ScriptedWork}

/-- A pass whose work is held up stays where it is. -/
theorem Disciplined.goOn_of_waits (hdisciplined : executor.Disciplined)
    (hbegun : pass ∈ executor.begun) (hwaits : pass.Waits) :
    executor.goOn ScriptedWork.goOn pass () = (executor, ()) := by
  rcases pass.work.goOn_cases pass.cancelled with ⟨-, h⟩ | ⟨hreturns, -⟩
  · unfold Executor.goOn
    rw [h]
    simp only [setWork_work hdisciplined.distinct_live (mem_live_of_begun hbegun)]
  · exact absurd hwaits hreturns

/-- The work of any other pass returns. -/
theorem goOn_of_not_waits (executor : Executor ScriptedWork) (hreturns : ¬ pass.Waits) :
    ∃ result, executor.goOn ScriptedWork.goOn pass () =
        (executor.workReturned pass.id result, ()) ∧
      (pass.cancelled = false → result = pass.work.result) := by
  rcases pass.work.goOn_cases pass.cancelled with ⟨hwaits, -⟩ | ⟨-, result, h, hown⟩
  · exact absurd hwaits hreturns
  · refine ⟨result, ?_, hown⟩
    unfold goOn
    rw [h]

/-- The worker has nothing to do with the pass it has but wait. -/
def HeldUp (executor : Executor ScriptedWork) : Prop :=
  ∀ pass, executor.worker.held = some pass →
    pass.Waits ∧ (executor.worker = .running pass → pass.cancelled = false)

/-- An executor in which nothing can go on. -/
structure Settled (executor : Executor ScriptedWork) : Prop where
  /-- All work that has begun is held up. -/
  waits : ∀ pass ∈ executor.begun, pass.Waits
  /-- The worker runs no pass that was told to stop. -/
  noticed : ∀ pass, executor.worker = .running pass → pass.cancelled = false
  /-- The worker is idle only when no pass is left to take. -/
  taken : executor.worker = .idle → executor.queue = []

/-- A pass that is left over goes on: it is held up or gone, and nothing else changes. -/
theorem Disciplined.goOn_leftover (hdisciplined : executor.Disciplined)
    (hpass : pass ∈ executor.leftover) :
    ∃ after, executor.goOn ScriptedWork.goOn pass () = (after, ()) ∧ after.Disciplined ∧
      after.worker = executor.worker ∧ after.queue = executor.queue ∧
      (∀ other ∈ after.leftover,
        other ∈ executor.leftover ∧ (other.id = pass.id → other.Waits)) ∧
      ∀ other ∈ executor.leftover, other.id ≠ pass.id → other ∈ after.leftover := by
  have hbegun : pass ∈ executor.begun := by
    rw [begun_eq]
    exact List.mem_append_right _ hpass
  by_cases hwaits : pass.Waits
  · refine ⟨executor, hdisciplined.goOn_of_waits hbegun hwaits, hdisciplined, rfl, rfl, ?_,
      fun _ hother _ => hother⟩
    intro other hother
    refine ⟨hother, fun hsame => ?_⟩
    rwa [List.inj_on_of_nodup_map hdisciplined.apart hother hpass hsame]
  · obtain ⟨result, hreturned, -⟩ := executor.goOn_of_not_waits hwaits
    have hleftover := executor.leftover_workReturned pass.id result
    refine ⟨_, hreturned, hdisciplined.workReturned pass.id result, ?_,
      executor.queue_workReturned pass.id result, ?_, ?_⟩
    · rcases executor.worker_workReturned pass.id result with ⟨held, hheld, hid, -⟩ | ⟨-, hsame⟩
      · have hwaiting : held ∈ executor.unresolved := by simp [unresolved, hheld]
        exact absurd (hid ▸ List.mem_map_of_mem hpass) (hdisciplined.not_leftover hwaiting)
      · exact hsame
    · rw [hleftover]
      intro other hother
      obtain ⟨hbefore, hapart⟩ := List.mem_filter.mp hother
      exact ⟨hbefore, fun hsame => absurd hsame (of_decide_eq_true hapart)⟩
    · rw [hleftover]
      intro other hother hapart
      exact List.mem_filter.mpr ⟨hother, decide_eq_true hapart⟩

/-- The passes left over go on until they are held up, and nothing else changes. -/
theorem waits_foldl : ∀ {passes : List (Pass ScriptedWork)} {executor : Executor ScriptedWork},
    executor.Disciplined → (passes.map (·.id)).Nodup →
      (∀ pass ∈ passes, pass ∈ executor.leftover) →
      (∀ pass ∈ executor.leftover, pass ∈ passes ∨ pass.Waits) →
      ∃ after, passes.foldl (fun state pass => goOn ScriptedWork.goOn pass state.1 state.2)
          (executor, ()) = (after, ()) ∧
        after.worker = executor.worker ∧ after.queue = executor.queue ∧
        ∀ pass ∈ after.leftover, pass.Waits
  | [], executor, _, _, _, hothers =>
      ⟨executor, rfl, rfl, rfl, fun pass hmem => (hothers pass hmem).resolve_left nofun⟩
  | pass :: rest, executor, hdisciplined, hdistinct, hleft, hothers => by
      rw [List.map_cons, List.nodup_cons] at hdistinct
      obtain ⟨hfront, hrest⟩ := hdistinct
      obtain ⟨next, hnext, hkept, hworker, hqueue, hfrom, hto⟩ :=
        hdisciplined.goOn_leftover (hleft pass List.mem_cons_self)
      have hthere : ∀ other ∈ rest, other ∈ next.leftover := by
        intro other hother
        apply hto other (hleft other (List.mem_cons_of_mem pass hother))
        intro hsame
        exact hfront (hsame ▸ List.mem_map_of_mem hother)
      have hheld : ∀ other ∈ next.leftover, other ∈ rest ∨ other.Waits := by
        intro other hother
        obtain ⟨hbefore, hwaits⟩ := hfrom other hother
        rcases hothers other hbefore with hmem | hwaiting
        · rcases List.mem_cons.mp hmem with rfl | hlater
          · exact Or.inr (hwaits rfl)
          · exact Or.inl hlater
        · exact Or.inr hwaiting
      obtain ⟨after, hfold, hsame, hline, hall⟩ := waits_foldl hkept hrest hthere hheld
      refine ⟨after, ?_, hsame.trans hworker, hline.trans hqueue, hall⟩
      rw [List.foldl_cons, hnext]
      exact hfold

theorem Disciplined.waits_goOnUnattended (hdisciplined : executor.Disciplined) :
    ∃ after, executor.goOnUnattended ScriptedWork.goOn () = (after, ()) ∧
      after.worker = executor.worker ∧ after.queue = executor.queue ∧
      ∀ pass ∈ after.leftover, pass.Waits :=
  waits_foldl hdisciplined hdisciplined.apart (fun _ hmem => hmem) fun _ hmem => Or.inl hmem

/-- A pass that the worker still runs after it looked was not told to stop. -/
theorem spared_noticeCancellation (executor : Executor ScriptedWork) :
    (∀ pass, executor.noticeCancellation.worker = .running pass → pass.cancelled = false) ∧
      executor.noticeCancellation.queue = executor.queue := by
  rcases noticing_cases executor with ⟨hspared, h⟩ | ⟨_, _, _, _, h⟩ | ⟨_, _, _, _, h⟩
  · rw [h]
    exact ⟨hspared, rfl⟩
  · rw [h]
    exact ⟨nofun, rfl⟩
  · rw [h]
    exact ⟨nofun, rfl⟩

/-- The worker attends to the pass it has until the work returns or is held up. -/
theorem Disciplined.heldUp_attend (hdisciplined : executor.Disciplined) :
    ∃ after, executor.attend ScriptedWork.goOn () = (after, ()) ∧ after.Disciplined ∧
      after.HeldUp ∧ after.queue = executor.queue := by
  obtain ⟨hspared, hqueue⟩ := executor.spared_noticeCancellation
  have hnoticed := hdisciplined.noticeCancellation
  unfold attend
  dsimp only
  split
  · next pass hheld =>
      have hbegun : pass ∈ executor.noticeCancellation.begun := by simp [begun, hheld]
      by_cases hwaits : pass.Waits
      · refine ⟨_, hnoticed.goOn_of_waits hbegun hwaits, hnoticed, ?_, hqueue⟩
        intro other hother
        rw [hheld] at hother
        cases hother
        exact ⟨hwaits, hspared pass⟩
      · obtain ⟨result, hreturned, -⟩ := goOn_of_not_waits executor.noticeCancellation hwaits
        refine ⟨_, hreturned, hnoticed.workReturned _ _, ?_, ?_⟩
        · rcases worker_workReturned executor.noticeCancellation pass.id result with
            ⟨-, -, -, hidle⟩ | ⟨hother, -⟩
          · intro other hother
            rw [hidle] at hother
            cases hother
          · exact absurd rfl (hother pass hheld)
        · rw [queue_workReturned, hqueue]
  · next hnone =>
      refine ⟨_, rfl, hnoticed, ?_, hqueue⟩
      intro other hother
      rw [hnone] at hother
      cases hother

/-- Only the idle worker takes a pass. -/
theorem takeNext_of_busy (hbusy : executor.worker ≠ .idle) : executor.takeNext = executor := by
  rcases takeNext_cases executor with h | ⟨_, _, hidle, -⟩ | ⟨_, _, hidle, -⟩
  · exact h
  · exact absurd hidle hbusy
  · exact absurd hidle hbusy

theorem queue_takeNext (hidle : executor.worker = .idle) :
    executor.takeNext.queue = executor.queue.tail := by
  unfold takeNext
  rw [hidle]
  cases hqueue : executor.queue with
  | nil => exact hqueue
  | cons pass rest =>
      cases hcancelled : pass.cancelled <;> simp [hcancelled, supersede, resolve]

/-- Attending to a pass that is held up changes nothing. -/
theorem Disciplined.attendAll_of_heldUp (hdisciplined : executor.Disciplined)
    (hheldUp : executor.HeldUp) (hbusy : executor.worker ≠ .idle) (further : Nat) :
    executor.attendAll ScriptedWork.goOn further () = (executor, ()) := by
  have hnotice : executor.noticeCancellation = executor := by
    rcases executor.noticing_cases with ⟨-, h⟩ | ⟨pass, hrunning, hcancelled, -⟩ |
      ⟨pass, hrunning, hcancelled, -⟩
    · exact h
    · have hspared := (hheldUp pass (by rw [hrunning]; rfl)).2 hrunning
      exact absurd (hspared.symm.trans hcancelled) Bool.false_ne_true
    · have hspared := (hheldUp pass (by rw [hrunning]; rfl)).2 hrunning
      exact absurd (hspared.symm.trans hcancelled) Bool.false_ne_true
  have hattend : executor.attend ScriptedWork.goOn () = (executor, ()) := by
    unfold attend
    rw [hnotice]
    dsimp only
    split
    · next pass hheld =>
        have hbegun : pass ∈ executor.begun := by simp [begun, hheld]
        exact hdisciplined.goOn_of_waits hbegun (hheldUp pass hheld).1
    · rfl
  induction further with
  | zero => exact hattend
  | succ further ih =>
      rw [attendAll, hattend]
      dsimp only
      rw [takeNext_of_busy hbusy, ih]

theorem heldUp_attendAll : ∀ {further : Nat} {executor : Executor ScriptedWork},
    executor.Disciplined → executor.queue.length ≤ further →
      ∃ after, executor.attendAll ScriptedWork.goOn further () = (after, ()) ∧
        after.HeldUp ∧ (after.worker = .idle → after.queue = [])
  | 0, executor, hdisciplined, hlength => by
      obtain ⟨after, hattend, -, hheldUp, hqueue⟩ := hdisciplined.heldUp_attend
      refine ⟨after, hattend, hheldUp, fun _ => ?_⟩
      rw [hqueue]
      exact List.eq_nil_of_length_eq_zero (Nat.le_zero.mp hlength)
  | further + 1, executor, hdisciplined, hlength => by
      obtain ⟨next, hattend, hkept, hheldUp, hqueue⟩ := hdisciplined.heldUp_attend
      rw [attendAll, hattend]
      dsimp only
      by_cases hidle : next.worker = .idle
      · apply heldUp_attendAll hkept.takeNext
        rw [queue_takeNext hidle, List.length_tail, hqueue]
        omega
      · rw [takeNext_of_busy hidle]
        exact ⟨next, hkept.attendAll_of_heldUp hheldUp hidle further, hheldUp,
          fun hnow => absurd hnow hidle⟩

/-- Nothing can go on when an executor has come to rest. -/
theorem Disciplined.settled_rest (hdisciplined : executor.Disciplined) :
    executor.rest.Settled := by
  obtain ⟨first, hfirst, -, -, -⟩ := hdisciplined.waits_goOnUnattended
  have hstrides := strides_goOnUnattended ScriptedWork.goOn hdisciplined ()
  rw [hfirst] at hstrides
  have hkept : first.Disciplined := Strides.disciplined hstrides hdisciplined
  obtain ⟨second, hsecond, hheldUp, hidle⟩ := heldUp_attendAll hkept (Nat.le_refl _)
  have hattended := strides_attendAll ScriptedWork.goOn first.queue.length first ()
  rw [hsecond] at hattended
  have hlater : second.Disciplined := Strides.disciplined hattended hkept
  obtain ⟨last, hlast, hworker, hqueue, hwaits⟩ := hlater.waits_goOnUnattended
  have hrest : executor.rest = last := by
    unfold rest settle
    rw [hfirst]
    dsimp only
    rw [hsecond]
    dsimp only
    rw [hlast]
  rw [hrest]
  refine ⟨?_, ?_, ?_⟩
  · intro pass hbegun
    rw [begun_eq, List.mem_append] at hbegun
    rcases hbegun with hheld | hleft
    · rw [hworker] at hheld
      exact (hheldUp pass (Option.mem_toList.mp hheld)).1
    · exact hwaits pass hleft
  · intro pass hrunning
    rw [hworker] at hrunning
    exact (hheldUp pass (by rw [hrunning]; rfl)).2 hrunning
  · rw [hworker, hqueue]
    exact hidle

end Executor

end Custody
