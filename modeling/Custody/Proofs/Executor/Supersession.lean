/-
# Supersession

A history of an executor is any sequence of events: somebody submits a pass, releases work, cancels,
shuts down, or loses patience with the worker; the worker takes the next pass or looks at the one it
runs; the work of a pass goes on; or everything comes to rest.  Sessions of bursts are such histories,
and so is every other order in which these things can come.

After every history the accepted passes stand in line in the order of their acceptance, whoever is not
the last of them was told to stop, and what becomes of a pass depends only on whether and when it was
told to stop and on its own work.
-/

import Custody.Proofs.Executor.Fate

namespace Custody

/-- One thing that happens to an executor. -/
inductive ExecutorEvent where
  /-- Somebody asks the executor for something. -/
  | act (action : ExecutorAction)
  /-- The worker takes the next pass. -/
  | takeNext
  /-- The worker looks whether the pass it runs was told to stop. -/
  | noticeCancellation
  /-- The work of a pass that has begun goes on. -/
  | goOn (id : PassId)
  /-- Everything goes on until nothing can. -/
  | rest
  /-- Somebody who waits for the worker to finish loses patience.  What happened while he waited came
  before. -/
  | giveUp

namespace Executor

/-- Shut down, and dismiss the worker without waiting any longer.  Nobody waits twice. -/
def giveUp {Work : Type} (executor : Executor Work) : Executor Work :=
  let executor := executor.shutdownNow
  if executor.awaited then executor else { executor with awaited := true }.dismissWorker

/-- The executor after an event. -/
def happen (executor : Executor ScriptedWork) : ExecutorEvent → Executor ScriptedWork
  | .act action => (executor.perform action).2
  | .takeNext => executor.takeNext
  | .noticeCancellation => executor.noticeCancellation
  | .goOn id =>
      match executor.begun? id with
      | some pass => (goOn ScriptedWork.goOn pass executor ()).1
      | none => executor
  | .rest => executor.rest
  | .giveUp => executor.giveUp

/-- The executor after a history. -/
def after (executor : Executor ScriptedWork) (history : List ExecutorEvent) :
    Executor ScriptedWork := history.foldl happen executor

/-- The pass that an event tells to stop. -/
def tells (executor : Executor ScriptedWork) : ExecutorEvent → Option PassId
  | .act (.submit _) | .act .cancelCurrent | .act .shutdownNow | .act .shutdown | .giveUp =>
      executor.current
  | _ => none

/-- The pass that an event adds, with its work. -/
def admits (executor : Executor ScriptedWork) : ExecutorEvent → Option (PassId × ScriptedWork)
  | .act (.submit work) => (executor.submit work).1.toOption.map fun id => (id, work)
  | _ => none

/-- The passes that were told to stop in the course of a history. -/
def told (executor : Executor ScriptedWork) : List ExecutorEvent → List PassId
  | [] => []
  | event :: rest => (executor.tells event).toList ++ (executor.happen event).told rest

/-- The passes that were accepted in the course of a history, with their work. -/
def admitted (executor : Executor ScriptedWork) :
    List ExecutorEvent → List (PassId × ScriptedWork)
  | [] => []
  | event :: rest => (executor.admits event).toList ++ (executor.happen event).admitted rest

variable {executor : Executor ScriptedWork}

theorem after_append (executor : Executor ScriptedWork) (before later : List ExecutorEvent) :
    executor.after (before ++ later) = (executor.after before).after later :=
  List.foldl_append

theorem after_acts (executor : Executor ScriptedWork) (burst : List ExecutorAction) :
    executor.after (burst.map .act) = (executor.performAll burst).2 := by
  induction burst generalizing executor with
  | nil => rfl
  | cons action rest ih => exact ih _

/-- A session of bursts is a history. -/
theorem run_eq_after (executor : Executor ScriptedWork) (bursts : List (List ExecutorAction)) :
    executor.run bursts =
      executor.after (bursts.flatMap fun burst => burst.map .act ++ [.rest]) := by
  induction bursts generalizing executor with
  | nil => rfl
  | cons burst rest ih =>
      rw [List.flatMap_cons, after_append, after_append, after_acts]
      exact ih _

/-- Who loses patience tells the current pass to stop and nobody else, and closes the executor. -/
theorem Disciplined.effect_giveUp (hdisciplined : executor.Disciplined) :
    Effect executor.current executor executor.giveUp ∧ executor.giveUp.closed = true := by
  have hclosing := hdisciplined.effect_shutdownNow
  have hawaited := hclosing.trans hclosing.disciplined.effect_await
  have hclosed := executor.closed_shutdownNow
  unfold giveUp
  dsimp only
  split
  · exact ⟨hclosing, hclosed⟩
  · exact ⟨hawaited.trans (hawaited.disciplined.effect_dismissWorker hclosed), hclosed⟩

/-- Every event is an effect, except that an accepted pass joins the line after the current one was
told to stop. -/
theorem Disciplined.happen_cases (hdisciplined : executor.Disciplined) (event : ExecutorEvent) :
    (executor.admits event = none ∧
      Effect (executor.tells event) executor (executor.happen event)) ∨
    ∃ work cleared, executor.closed = false ∧
      executor.admits event = some (executor.nextId, work) ∧
      Effect (executor.tells event) executor cleared ∧ cleared.closed = false ∧
      cleared.current = none ∧ cleared.nextId = executor.nextId ∧
      executor.happen event = cleared.join work := by
  cases event with
  | act action =>
      cases action with
      | submit work =>
          cases hclosed : executor.closed with
          | true =>
              have hrefused := submit_of_closed hclosed work
              refine Or.inl ⟨?_, ?_⟩
              · simp [admits, hrefused, Except.toOption]
              · simp only [happen, perform, hrefused]
                exact hdisciplined.effect_refuse
          | false =>
              have haccepted := hdisciplined.submit_of_open hclosed work
              obtain ⟨hplace, -, hnext, -⟩ := cancelCurrent_places executor
              refine Or.inr ⟨work, executor.cancelCurrent.2, rfl, ?_,
                hdisciplined.effect_cancelCurrent, hplace.trans hclosed,
                executor.current_cancelCurrent, hnext, ?_⟩
              · simp [admits, haccepted, Except.toOption]
              · simp only [happen, perform, haccepted]
      | release id => exact Or.inl ⟨rfl, hdisciplined.effect_release id⟩
      | cancelCurrent => exact Or.inl ⟨rfl, hdisciplined.effect_cancelCurrent⟩
      | shutdownNow => exact Or.inl ⟨rfl, hdisciplined.effect_shutdownNow⟩
      | shutdown => exact Or.inl ⟨rfl, hdisciplined.effect_shutdown.1⟩
  | takeNext => exact Or.inl ⟨rfl, hdisciplined.effect_takeNext⟩
  | noticeCancellation => exact Or.inl ⟨rfl, hdisciplined.effect_noticeCancellation⟩
  | goOn id =>
      refine Or.inl ⟨rfl, ?_⟩
      unfold happen
      dsimp only
      split
      · next pass hfound => exact hdisciplined.effect_goOn (List.mem_of_find?_eq_some hfound)
      · exact .refl hdisciplined
  | rest => exact Or.inl ⟨rfl, hdisciplined.effect_rest⟩
  | giveUp => exact Or.inl ⟨rfl, hdisciplined.effect_giveUp.1⟩

/-- Only the current pass is told to stop. -/
theorem current_of_tells {event : ExecutorEvent} {id : PassId}
    (htells : executor.tells event = some id) : executor.current = some id := by
  cases event with
  | act action => cases action <;> first | exact htells | cases htells
  | giveUp => exact htells
  | _ => cases htells

namespace Disciplined

theorem happen (hdisciplined : executor.Disciplined) (event : ExecutorEvent) :
    (executor.happen event).Disciplined := by
  rcases hdisciplined.happen_cases event with ⟨-, heffect⟩ |
    ⟨work, cleared, -, -, heffect, hopen, hnobody, -, h⟩
  · exact heffect.disciplined
  · rw [h]
    exact heffect.disciplined.join hopen hnobody work

/-- The line grows by the passes that an event admits. -/
theorem accepted_happen (hdisciplined : executor.Disciplined) (event : ExecutorEvent) :
    (executor.happen event).accepted =
      executor.accepted ++ (executor.admits event).toList.map (·.1) := by
  rcases hdisciplined.happen_cases event with ⟨hnobody, heffect⟩ |
    ⟨work, cleared, -, hadmits, heffect, -, -, hnext, h⟩
  · simp [hnobody, heffect.accepted]
  · rw [h, accepted_join, heffect.accepted, hadmits, hnext]
    rfl

theorem nextId_happen (hdisciplined : executor.Disciplined) (event : ExecutorEvent) :
    executor.nextId ≤ (executor.happen event).nextId := by
  rcases hdisciplined.happen_cases event with ⟨-, heffect⟩ |
    ⟨work, cleared, -, -, heffect, -, -, -, h⟩
  · exact heffect.nextId
  · rw [h]
    exact Nat.le_succ_of_le heffect.nextId

/-- A pass that was told to stop never becomes current again. -/
theorem current_happen (hdisciplined : executor.Disciplined) {id : PassId}
    (hold : id < executor.nextId) (hother : executor.current ≠ some id) (event : ExecutorEvent) :
    (executor.happen event).current ≠ some id := by
  rcases hdisciplined.happen_cases event with ⟨-, heffect⟩ |
    ⟨work, cleared, -, -, heffect, -, -, hnext, h⟩
  · rcases heffect.current with hsame | hnone
    · rwa [hsame]
    · rw [hnone]
      exact nofun
  · rw [h]
    intro hnow
    have hid : cleared.nextId = id := Option.some.inj hnow
    exact absurd (hid.symm.trans hnext) (Nat.ne_of_lt hold)

theorem current_lt (hdisciplined : executor.Disciplined) {id : PassId}
    (hcurrent : executor.current = some id) : id < executor.nextId := by
  have hlast := hdisciplined.last id hcurrent
  exact hdisciplined.numbered id (List.mem_append_right _ (List.mem_of_getLast? hlast))

/-- Whoever an event tells to stop is not current afterwards. -/
theorem current_of_told (hdisciplined : executor.Disciplined) {event : ExecutorEvent} {id : PassId}
    (htells : executor.tells event = some id) : (executor.happen event).current ≠ some id := by
  have hcurrent := current_of_tells htells
  have hkept := hdisciplined.happen event
  cases event with
  | act action =>
      cases action with
      | submit work =>
          cases hclosed : executor.closed with
          | true =>
              rw [hdisciplined.closing hclosed] at hcurrent
              cases hcurrent
          | false =>
              have hold := hdisciplined.current_lt hcurrent
              have hnext := (cancelCurrent_places executor).2.2.1
              simp only [Executor.happen, perform, hdisciplined.submit_of_open hclosed]
              intro hnow
              have hid : executor.cancelCurrent.2.nextId = id := Option.some.inj hnow
              exact absurd (hid.symm.trans hnext) (Nat.ne_of_lt hold)
      | release number => cases htells
      | cancelCurrent =>
          show executor.cancelCurrent.2.current ≠ some id
          rw [current_cancelCurrent]
          exact nofun
      | shutdownNow =>
          rw [hkept.closing executor.closed_shutdownNow]
          exact nofun
      | shutdown =>
          rw [hkept.closing hdisciplined.effect_shutdown.2]
          exact nofun
  | giveUp =>
      rw [hkept.closing hdisciplined.effect_giveUp.2]
      exact nofun
  | _ => cases htells

/-- A pass begins only while it is current. -/
theorem started_happen (hdisciplined : executor.Disciplined) (event : ExecutorEvent) :
    ∃ taken, (executor.happen event).started = executor.started ++ taken ∧
      ∀ id ∈ taken, executor.current = some id := by
  have hbegins : ∀ {told : Option PassId} {after : Executor ScriptedWork},
      Effect told executor after → ∃ taken, after.started = executor.started ++ taken ∧
        ∀ id ∈ taken, executor.current = some id := by
    intro told after heffect
    obtain ⟨taken, hstarted, hspared⟩ := heffect.begins
    refine ⟨taken, hstarted, fun id hmem => ?_⟩
    obtain ⟨pass, hpass, rfl, hnot⟩ := hspared id hmem
    exact (hdisciplined.spared pass (List.mem_append_right _ hpass)).mp hnot
  rcases hdisciplined.happen_cases event with ⟨-, heffect⟩ |
    ⟨work, cleared, -, -, heffect, -, -, -, h⟩
  · exact hbegins heffect
  · have hcleared := hbegins heffect
    rw [h]
    exact hcleared

/-- What will become of a pass stays settled, unless the event tells it to stop. -/
theorem bound_happen (hdisciplined : executor.Disciplined) {event : ExecutorEvent} {id : PassId}
    {outcome : Outcome} (htells : executor.tells event ≠ some id)
    (hbound : executor.Bound id outcome) : (executor.happen event).Bound id outcome := by
  rcases hdisciplined.happen_cases event with ⟨-, heffect⟩ |
    ⟨work, cleared, -, -, heffect, -, -, -, h⟩
  · exact heffect.bound id outcome htells hbound
  · rw [h]
    rcases heffect.bound id outcome htells hbound with hended | ⟨pass, hwaits, hid, hdestined⟩
    · exact Or.inl hended
    · refine Or.inr ⟨pass, ?_, hid, hdestined⟩
      rw [unresolved_join]
      exact List.mem_append_left _ hwaits

/-- A pass with a cancelled token had it before, or is told to stop just now. -/
theorem traced_happen (hdisciplined : executor.Disciplined) {event : ExecutorEvent}
    {pass : Pass ScriptedWork} (hlive : pass ∈ (executor.happen event).live)
    (hcancelled : pass.cancelled = true) :
    (∃ before ∈ executor.live, before.id = pass.id ∧ before.cancelled = true) ∨
      executor.tells event = some pass.id := by
  have htraced : ∀ {after : Executor ScriptedWork}, Effect (executor.tells event) executor after →
      pass ∈ after.live →
      (∃ before ∈ executor.live, before.id = pass.id ∧ before.cancelled = true) ∨
        executor.tells event = some pass.id := by
    intro after heffect hmem
    obtain ⟨before, hbefore, hid, htold⟩ := heffect.traced pass hmem
    exact (htold hcancelled).imp_left fun hwas => ⟨before, hbefore, hid, hwas⟩
  rcases hdisciplined.happen_cases event with ⟨-, heffect⟩ |
    ⟨work, cleared, -, -, heffect, -, -, -, h⟩
  · exact htraced heffect hlive
  · rw [h] at hlive
    rcases mem_live.mp hlive with hline | hleft
    · rw [unresolved_join] at hline
      rcases List.mem_append.mp hline with hwaits | hnew
      · exact htraced heffect (mem_live.mpr (Or.inl hwaits))
      · rw [List.mem_singleton.mp hnew] at hcancelled
        cases hcancelled
    · exact htraced heffect (mem_live.mpr (Or.inr hleft))

end Disciplined

namespace Disciplined

theorem after (hdisciplined : executor.Disciplined) (history : List ExecutorEvent) :
    (executor.after history).Disciplined := by
  induction history generalizing executor with
  | nil => exact hdisciplined
  | cons event rest ih => exact ih (hdisciplined.happen event)

theorem accepted_after (hdisciplined : executor.Disciplined) (history : List ExecutorEvent) :
    (executor.after history).accepted =
      executor.accepted ++ (executor.admitted history).map (·.1) := by
  induction history generalizing executor with
  | nil => simp [Executor.after, admitted]
  | cons event rest ih =>
      have hhappen := ih (hdisciplined.happen event)
      rw [hdisciplined.accepted_happen, List.append_assoc, ← List.map_append] at hhappen
      exact hhappen

/-- Whoever was told to stop, before a history or in its course, is not current at its end. -/
theorem current_after (hdisciplined : executor.Disciplined) {history : List ExecutorEvent}
    {id : PassId}
    (htold : id ∈ executor.told history ∨ id < executor.nextId ∧ executor.current ≠ some id) :
    (executor.after history).current ≠ some id := by
  induction history generalizing executor with
  | nil => exact (htold.resolve_left nofun).2
  | cons event rest ih =>
      apply ih (hdisciplined.happen event)
      have hnext := hdisciplined.nextId_happen event
      rcases htold with hmem | ⟨hold, hother⟩
      · rcases List.mem_append.mp hmem with hnow | hthen
        · have htells := Option.mem_toList.mp hnow
          have hold := hdisciplined.current_lt (current_of_tells htells)
          exact Or.inr ⟨Nat.lt_of_lt_of_le hold hnext, hdisciplined.current_of_told htells⟩
        · exact Or.inl hthen
      · exact Or.inr ⟨Nat.lt_of_lt_of_le hold hnext, hdisciplined.current_happen hold hother event⟩

/-- A pass that is not current does not begin any more, and what becomes of it stays settled. -/
theorem bound_after (hdisciplined : executor.Disciplined) {id : PassId} {outcome : Outcome}
    (hold : id < executor.nextId) (hother : executor.current ≠ some id)
    (hbound : executor.Bound id outcome) (history : List ExecutorEvent) :
    (executor.after history).Bound id outcome ∧
      (id ∈ (executor.after history).started → id ∈ executor.started) := by
  induction history generalizing executor with
  | nil => exact ⟨hbound, fun hmem => hmem⟩
  | cons event rest ih =>
      have hnext := hdisciplined.nextId_happen event
      have htells : executor.tells event ≠ some id := fun h => hother (current_of_tells h)
      obtain ⟨hlater, hbegan⟩ := ih (hdisciplined.happen event) (Nat.lt_of_lt_of_le hold hnext)
        (hdisciplined.current_happen hold hother event) (hdisciplined.bound_happen htells hbound)
      obtain ⟨taken, hstarted, hcurrent⟩ := hdisciplined.started_happen event
      refine ⟨hlater, fun hmem => ?_⟩
      have hnow := hbegan hmem
      rw [hstarted] at hnow
      rcases List.mem_append.mp hnow with hbefore | htaken
      · exact hbefore
      · exact absurd (hcurrent id htaken) hother

/-- A closed executor stays closed, and no work begins any more. -/
theorem closed_after (hdisciplined : executor.Disciplined) (hclosed : executor.closed = true)
    (history : List ExecutorEvent) :
    (executor.after history).closed = true ∧
      (executor.after history).started = executor.started := by
  induction history generalizing executor with
  | nil => exact ⟨hclosed, rfl⟩
  | cons event rest ih =>
      have hstays : (executor.happen event).closed = true := by
        rcases hdisciplined.happen_cases event with ⟨-, heffect⟩ | ⟨work, cleared, hopen, -⟩
        · exact heffect.closed hclosed
        · exact absurd hclosed (ne_true_of_eq_false hopen)
      obtain ⟨hlater, hsame⟩ := ih (hdisciplined.happen event) hstays
      obtain ⟨taken, hstarted, hcurrent⟩ := hdisciplined.started_happen event
      have hnobody : taken = [] := by
        apply List.eq_nil_iff_forall_not_mem.mpr
        intro id hmem
        have hnow := hcurrent id hmem
        rw [hdisciplined.closing hclosed] at hnow
        cases hnow
      rw [hnobody, List.append_nil] at hstarted
      exact ⟨hlater, hsame.trans hstarted⟩

/-- A pass with a cancelled token was told to stop. -/
theorem traced_after (hdisciplined : executor.Disciplined) {history : List ExecutorEvent}
    {pass : Pass ScriptedWork} (hlive : pass ∈ (executor.after history).live)
    (hcancelled : pass.cancelled = true) :
    (∃ before ∈ executor.live, before.id = pass.id ∧ before.cancelled = true) ∨
      pass.id ∈ executor.told history := by
  induction history generalizing executor with
  | nil => exact Or.inl ⟨pass, hlive, rfl, hcancelled⟩
  | cons event rest ih =>
      rcases ih (hdisciplined.happen event) hlive with ⟨between, hbetween, hid, hwas⟩ | hthen
      · rcases hdisciplined.traced_happen hbetween hwas with ⟨before, hbefore, hsame, hearlier⟩ | hnow
        · exact Or.inl ⟨before, hbefore, hsame.trans hid, hearlier⟩
        · right
          rw [hid] at hnow
          exact List.mem_append_left _ (Option.mem_toList.mpr hnow)
      · exact Or.inr (List.mem_append_right _ hthen)

/-- A pass that is admitted and not told to stop ends by its own work. -/
theorem own_after (hdisciplined : executor.Disciplined) {history : List ExecutorEvent}
    {id : PassId} {work : ScriptedWork} (hspared : id ∉ executor.told history)
    (hown : (id, work) ∈ executor.admitted history ∨ executor.Bound id (.ofResult work.result)) :
    (executor.after history).Bound id (.ofResult work.result) := by
  induction history generalizing executor with
  | nil => exact hown.resolve_left nofun
  | cons event rest ih =>
      have hnow : executor.tells event ≠ some id := fun htells =>
        hspared (List.mem_append_left _ (Option.mem_toList.mpr htells))
      have hthen : id ∉ (executor.happen event).told rest := fun hmem =>
        hspared (List.mem_append_right _ hmem)
      apply ih (hdisciplined.happen event) hthen
      rcases hown with hmem | hbound
      · rcases List.mem_append.mp hmem with hjoins | hlater
        · right
          rcases hdisciplined.happen_cases event with ⟨hnobody, -⟩ |
            ⟨other, cleared, -, hadmits, -, -, -, hnext, h⟩
          · rw [hnobody] at hjoins
            cases hjoins
          · rw [hadmits] at hjoins
            obtain ⟨rfl, rfl⟩ := Prod.mk.inj (Option.some.inj (Option.mem_toList.mp hjoins))
            rw [h]
            right
            refine ⟨⟨cleared.nextId, false, other⟩, ?_, hnext, Or.inl ⟨rfl, rfl⟩⟩
            rw [unresolved_join]
            exact List.mem_append_right _ List.mem_cons_self
        · exact Or.inl hlater
      · exact Or.inr (hdisciplined.bound_happen hnow hbound)

end Disciplined

/-- A pass ended with an outcome, or it waits and has not ended. -/
def EndsAs (executor : Executor ScriptedWork) (id : PassId) (outcome : Outcome) : Prop :=
  executor.outcomeOf id = some outcome ∨
    (executor.outcomeOf id = none ∧ ∃ pass ∈ executor.unresolved, pass.id = id)

theorem Disciplined.endsAs_of_bound (hdisciplined : executor.Disciplined) {id : PassId}
    {outcome : Outcome} (hbound : executor.Bound id outcome) : executor.EndsAs id outcome := by
  rcases hbound with hended | ⟨pass, hwaits, rfl, -⟩
  · exact Or.inl (hdisciplined.outcomeOf_of_mem hended)
  · exact Or.inr ⟨hdisciplined.outcomeOf_of_waits hwaits, pass, hwaits, rfl⟩

/-- At rest a pass waits only for its own work, or while the executor is shutting down for the work
that the worker waits for. -/
theorem Disciplined.held_of_settled (hdisciplined : executor.Disciplined)
    (hsettled : executor.Settled) {pass : Pass ScriptedWork} (hwaits : pass ∈ executor.unresolved) :
    (executor.worker = .running pass ∧ pass.Waits) ∨
      ∃ held, executor.worker = .draining held ∧ held.Waits ∧ executor.closed = true := by
  cases hworker : executor.worker with
  | idle =>
      have hqueue := hsettled.taken hworker
      simp [unresolved, hworker, hqueue, Worker.held] at hwaits
  | gone =>
      have hqueue := (hdisciplined.gone hworker).2
      simp [unresolved, hworker, hqueue, Worker.held] at hwaits
  | running held =>
      have hbegun : held ∈ executor.begun := by simp [begun, hworker, Worker.held]
      have hline : held ∈ executor.unresolved := by simp [unresolved, hworker, Worker.held]
      have hspared := hsettled.noticed held hworker
      have hlast := hdisciplined.last held.id ((hdisciplined.spared held hline).mp hspared)
      have hdistinct := (List.nodup_append.mp hdisciplined.nodup).2.1
      have hfront : executor.unresolved = held :: executor.queue := by
        rw [unresolved, hworker]
        rfl
      rw [hfront, List.map_cons] at hlast hdistinct
      have hempty : executor.queue = [] := by
        apply List.map_eq_nil_iff.mp
        cases hids : executor.queue.map (·.id) with
        | nil => rfl
        | cons first others =>
            rw [hids, List.getLast?_cons_cons] at hlast
            exact absurd (hids ▸ List.mem_of_getLast? hlast) (List.nodup_cons.mp hdistinct).1
      rw [hfront, hempty, List.mem_singleton] at hwaits
      rw [hwaits]
      exact Or.inl ⟨rfl, hsettled.waits held hbegun⟩
  | draining held =>
      have hbegun : held ∈ executor.begun := by simp [begun, hworker, Worker.held]
      exact Or.inr ⟨held, rfl, hsettled.waits held hbegun, (hdisciplined.draining held hworker).2⟩

/-- A pass with a cancelled token is not current. -/
theorem Disciplined.not_current (hdisciplined : executor.Disciplined) {pass : Pass ScriptedWork}
    (hlive : pass ∈ executor.live) (hcancelled : pass.cancelled = true) :
    executor.current ≠ some pass.id := by
  intro hcurrent
  rcases mem_live.mp hlive with hwaits | hleft
  · have hspared := (hdisciplined.spared pass hwaits).mpr hcurrent
    exact Bool.false_ne_true (hspared.symm.trans hcancelled)
  · obtain ⟨other, hother, hsame⟩ :=
      List.mem_map.mp (List.mem_of_getLast? (hdisciplined.last pass.id hcurrent))
    apply hdisciplined.not_leftover hother
    rw [hsame]
    exact List.mem_map_of_mem hleft

/-- A pass with a cancelled token is superseded, unless the worker runs it and has yet to notice. -/
theorem Disciplined.superseded_after (hdisciplined : executor.Disciplined)
    {pass : Pass ScriptedWork} (hlive : pass ∈ executor.live) (hcancelled : pass.cancelled = true)
    (hnoticed : executor.worker ≠ .running pass) (history : List ExecutorEvent) :
    (executor.after history).EndsAs pass.id .superseded ∧
      (pass.id ∈ (executor.after history).started → pass.id ∈ executor.started) := by
  have hbound : executor.Bound pass.id .superseded := by
    rcases mem_live.mp hlive with hwaits | hleft
    · exact Or.inr ⟨pass, hwaits, rfl, Or.inr ⟨hcancelled, hnoticed, rfl⟩⟩
    · exact Or.inl (hdisciplined.leftover pass hleft).2
  have hold : pass.id < executor.nextId := by
    apply hdisciplined.numbered
    rcases mem_live.mp hlive with hwaits | hleft
    · exact List.mem_append_right _ (List.mem_map_of_mem hwaits)
    · exact List.mem_append_left _ (List.mem_map_of_mem (hdisciplined.leftover pass hleft).2)
  obtain ⟨hlater, hbegan⟩ := hdisciplined.bound_after hold
    (hdisciplined.not_current hlive hcancelled) hbound history
  exact ⟨(hdisciplined.after history).endsAs_of_bound hlater, hbegan⟩

/-- A pass in the queue has not begun, and the worker does not run it. -/
theorem Disciplined.not_begun (hdisciplined : executor.Disciplined) {pass : Pass ScriptedWork}
    (hqueued : pass ∈ executor.queue) :
    pass.id ∉ executor.started ∧ executor.worker ≠ .running pass := by
  have hdistinct := hdisciplined.nodup
  rw [accepted, unresolved, List.map_append, ← List.append_assoc] at hdistinct
  have happart : pass.id ∉ executor.resolved.map (·.1) ++ executor.worker.held.toList.map (·.id) :=
    fun hmem => List.disjoint_of_nodup_append hdistinct hmem (List.mem_map_of_mem hqueued)
  refine ⟨fun hbegan => happart (hdisciplined.started.subset hbegan), fun hrunning => ?_⟩
  apply happart
  rw [hrunning]
  exact List.mem_append_right _ List.mem_cons_self

/-- Tokens are cancelled by telling passes to stop, and by nothing else. -/
theorem cancelled_iff_told (name : String) (history : List ExecutorEvent)
    {pass : Pass ScriptedWork} (hlive : pass ∈ ((new name).after history).live) :
    pass.cancelled = true ↔ pass.id ∈ (new name).told history := by
  have hnew : (new name : Executor ScriptedWork).Disciplined := disciplined_new name
  have hnow := hnew.after history
  constructor
  · intro hcancelled
    exact (hnew.traced_after hlive hcancelled).resolve_left fun ⟨_, hmem, _⟩ => nomatch hmem
  · intro htold
    have hother := hnew.current_after (Or.inl htold)
    rcases mem_live.mp hlive with hwaits | hleft
    · apply eq_true_of_ne_false
      intro hspared
      exact hother ((hnow.spared pass hwaits).mp hspared)
    · exact (hnow.leftover pass hleft).1

/-- What is true of an executor now, and of any earlier moment, given the passes accepted so far and
those told to stop so far and up to the earlier moment. -/
structure Superseding (accepted : List (PassId × ScriptedWork)) (toldThen told : List PassId)
    (earlier now : Executor ScriptedWork) : Prop where
  /-- Accepted passes have numbers of their own. -/
  distinct : (accepted.map (·.1)).Nodup
  /-- Passes are taken and resolved in the order in which they were accepted, each at most once. -/
  inOrder : now.resolved.map (·.1) ++ now.unresolved.map (·.id) = accepted.map (·.1)
  /-- Work begins in that order. -/
  started : now.started.Sublist (accepted.map (·.1))
  /-- The token of a pass whose work has not returned is cancelled if the pass was told to stop. -/
  token : ∀ pass ∈ now.live, pass.cancelled = true ↔ pass.id ∈ told
  /-- A pass that waits and was not accepted last was told to stop. -/
  newest : ∀ pass ∈ now.unresolved,
    pass.cancelled = true ∨ (accepted.map (·.1)).getLast? = some pass.id
  /-- A pass that was not told to stop, and whose work has not returned, is current. -/
  current : ∀ pass ∈ now.live, pass.cancelled = false → now.current = some pass.id
  /-- A pass that was told to stop before the worker took it never begins and is superseded. -/
  untaken : ∀ pass ∈ earlier.queue, pass.id ∈ toldThen →
    pass.id ∉ now.started ∧ now.EndsAs pass.id .superseded
  /-- A pass that was told to stop, and whose work has not returned when all has come to rest, is
  superseded whatever comes later. -/
  late : earlier.Settled → ∀ pass ∈ earlier.live, pass.id ∈ toldThen →
    now.EndsAs pass.id .superseded
  /-- A pass that was never told to stop ends by its own work. -/
  own : ∀ id work, (id, work) ∈ accepted → id ∉ told → now.EndsAs id (.ofResult work.result)
  /-- At rest a pass waits only because its own work is held up, or because the executor was shut
  down and the worker waits for work that is held up. -/
  held : now.Settled → ∀ pass ∈ now.unresolved,
    (now.worker = .running pass ∧ pass.Waits) ∨
      ∃ held, now.worker = .draining held ∧ held.Waits ∧ now.closed = true
  /-- The executor can always come to rest. -/
  settles : now.rest.Settled
  /-- Once it is shut down, no work begins any more and no pass is accepted. -/
  closing : earlier.closed = true → now.closed = true ∧ now.started = earlier.started ∧
    ∀ work, (now.submit work).1 = .error .rejected
  /-- Shutting down closes the executor. -/
  shuts : now.shutdownNow.closed = true ∧ (now.perform .shutdown).2.closed = true ∧
    now.giveUp.closed = true

/-- The law of supersession holds of every history and of every moment in it. -/
theorem superseding_after (name : String) (before later : List ExecutorEvent) :
    Superseding ((new name).admitted (before ++ later)) ((new name).told before)
      ((new name).told (before ++ later)) ((new name).after before)
      ((new name).after (before ++ later)) := by
  have hnew : (new name : Executor ScriptedWork).Disciplined := disciplined_new name
  have hthen := hnew.after before
  have hnow := hnew.after (before ++ later)
  have hfrom := after_append (new name) before later
  have haccepted := hnew.accepted_after (before ++ later)
  have hnone : (new name : Executor ScriptedWork).accepted = [] := rfl
  rw [hnone, List.nil_append] at haccepted
  constructor
  case distinct => exact haccepted ▸ hnow.nodup
  case inOrder => exact haccepted
  case started =>
    rw [← haccepted]
    refine hnow.started.trans ?_
    rw [accepted, unresolved, List.map_append, ← List.append_assoc]
    exact List.sublist_append_left _ _
  case token =>
    intro pass hlive
    exact cancelled_iff_told name (before ++ later) hlive
  case newest =>
    intro pass hwaits
    cases hcancelled : pass.cancelled with
    | true => exact Or.inl rfl
    | false =>
        right
        rw [← haccepted]
        exact hnow.getLast?_accepted hwaits hcancelled
  case current =>
    intro pass hlive hspared
    rcases mem_live.mp hlive with hwaits | hleft
    · exact (hnow.spared pass hwaits).mp hspared
    · exact absurd (hspared.symm.trans (hnow.leftover pass hleft).1) Bool.false_ne_true
  case untaken =>
    intro pass hqueued htold
    have hlive : pass ∈ ((new name).after before).live :=
      mem_live.mpr (Or.inl (List.mem_append_right _ hqueued))
    obtain ⟨hunbegun, hnoticed⟩ := hthen.not_begun hqueued
    obtain ⟨hends, hbegan⟩ := hthen.superseded_after hlive
      ((cancelled_iff_told name before hlive).mpr htold) hnoticed later
    rw [hfrom]
    exact ⟨fun hstarted => hunbegun (hbegan hstarted), hends⟩
  case late =>
    -- At rest the worker has noticed every pass that was told to stop, so it runs none of them.
    intro hsettled pass hlive htold
    have hcancelled := (cancelled_iff_told name before hlive).mpr htold
    have hnoticed : ((new name).after before).worker ≠ .running pass := by
      intro hrunning
      exact Bool.false_ne_true ((hsettled.noticed pass hrunning).symm.trans hcancelled)
    rw [hfrom]
    exact (hthen.superseded_after hlive hcancelled hnoticed later).1
  case own =>
    intro id work hadmitted hspared
    exact hnow.endsAs_of_bound (hnew.own_after hspared (Or.inl hadmitted))
  case held =>
    intro hsettled pass hwaits
    exact hnow.held_of_settled hsettled hwaits
  case settles => exact hnow.settled_rest
  case closing =>
    intro hclosed
    obtain ⟨hstays, hsame⟩ := hthen.closed_after hclosed later
    rw [hfrom]
    refine ⟨hstays, hsame, fun work => ?_⟩
    rw [submit_of_closed hstays]
  case shuts => exact ⟨closed_shutdownNow _, hnow.effect_shutdown.2, hnow.effect_giveUp.2⟩

end Executor

end Custody
