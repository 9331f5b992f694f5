/-
# An executor in service

Whoever uses an executor submits passes, cancels them, shuts the executor down and may wait for its
worker to finish.  Meanwhile the worker moves on, and the work of the passes goes on and returns;
nothing is assumed about when it returns, or with what, or about how long anybody has patience.

A service is an executor together with what was seen of it.  Each of its steps is a number of turns of
its account, and a session of bursts is a service.
-/

import Custody.Proofs.Executor.Account
import Custody.Proofs.Executor.Supersession

namespace Custody

/-- A move of the worker, or of the work of a pass. -/
inductive Move (Work : Type) where
  /-- The worker takes the next pass. -/
  | takeNext
  /-- The worker looks whether the pass it runs was told to stop. -/
  | noticeCancellation
  /-- The work of a pass comes further. -/
  | progress (id : PassId) (work : Work)
  /-- The work of a pass returns. -/
  | returns (id : PassId) (result : Except Error Report)

/-- A step of an executor in service. -/
inductive ServiceStep (Work : Type) where
  | submit (work : Work)
  | cancelCurrent
  | shutdownNow
  /-- Shut down and wait for the worker.  Who is hasty gives up even on a worker that is about to
  finish. -/
  | shutdown (meanwhile : List (Move Work)) (hasty : Bool)
  | move (move : Move Work)

/-- An executor, and what was seen of it. -/
structure Service (Work : Type) where
  executor : Executor Work
  /-- The passes that were accepted. -/
  admitted : List PassId
  /-- The passes whose work has returned. -/
  returned : List PassId
  /-- The passes that were not resolved when the worker was dismissed. -/
  dismissed : List PassId
  /-- What those were told who waited for the worker. -/
  answers : List Bool

namespace Service

variable {Work : Type}

/-- An executor of which nothing was seen. -/
def new (name : String) : Service Work where
  executor := .new name
  admitted := []
  returned := []
  dismissed := []
  answers := []

/-- The service after a move. -/
def move (service : Service Work) : Move Work → Service Work
  | .takeNext => { service with executor := service.executor.takeNext }
  | .noticeCancellation => { service with executor := service.executor.noticeCancellation }
  | .progress id work => { service with executor := service.executor.setWork id work }
  | .returns id result =>
      match service.executor.begun? id with
      | some _ =>
          { service with
            executor := service.executor.workReturned id result
            returned := service.returned ++ [id] }
      | none => service

/-- Submit a pass. -/
def submit (service : Service Work) (work : Work) : Service Work :=
  let (result, executor) := service.executor.submit work
  { service with
    executor := executor
    admitted := service.admitted ++ result.toOption.toList }

/-- Tell whoever waits for the worker how it ended. -/
def answer (service : Service Work) (verdict : Bool) : Service Work :=
  { service with answers := service.answers ++ [verdict] }

/-- Dismiss the worker. -/
def dismiss (service : Service Work) : Service Work :=
  { service with
    executor := service.executor.dismissWorker
    dismissed := service.dismissed ++ service.executor.unresolved.map (·.id) }

/-- Wait while the worker makes some moves.  If it has not finished by then, dismiss it. -/
def await (service : Service Work) (meanwhile : List (Move Work)) (hasty : Bool) : Service Work :=
  let service :=
    meanwhile.foldl move { service with executor := { service.executor with awaited := true } }
  if hasty || !service.executor.unresolved.isEmpty then service.dismiss.answer false
  else service.answer true

/-- Shut down and wait for the worker.  Nobody waits twice. -/
def shutdown (service : Service Work) (meanwhile : List (Move Work)) (hasty : Bool) :
    Service Work :=
  let service := { service with executor := service.executor.shutdownNow }
  if service.executor.awaited then service.answer true else service.await meanwhile hasty

/-- The service after a step. -/
def serve (service : Service Work) : ServiceStep Work → Service Work
  | .submit work => service.submit work
  | .cancelCurrent => { service with executor := service.executor.cancelCurrent.2 }
  | .shutdownNow => { service with executor := service.executor.shutdownNow }
  | .shutdown meanwhile hasty => service.shutdown meanwhile hasty
  | .move move => service.move move

/-- The service after a number of steps. -/
def served (service : Service Work) (steps : List (ServiceStep Work)) : Service Work :=
  steps.foldl serve service

/-- The account of a service. -/
def account (service : Service Work) : Account where
  metrics := service.executor.metrics
  resolved := service.executor.resolved
  started := service.executor.started
  held := service.executor.worker.held.map (·.id)
  queue := service.executor.queue.map (·.id)
  abandoned := service.executor.abandoned.map (·.id)
  stranded := service.executor.stranded.map (·.id)
  admitted := service.admitted
  returned := service.returned
  dismissed := service.dismissed

variable {service : Service Work}

theorem waiting_account (service : Service Work) :
    service.account.waiting = service.executor.unresolved.map (·.id) := by
  cases hheld : service.executor.worker.held <;>
    simp [account, Account.waiting, Executor.unresolved, hheld]

/-- An account is not about how far the work of passes has come, or which were told to stop. -/
theorem account_congr {executor : Executor Work}
    (hmetrics : executor.metrics = service.executor.metrics)
    (hresolved : executor.resolved = service.executor.resolved)
    (hstarted : executor.started = service.executor.started)
    (hheld : executor.worker.held.map (·.id) = service.executor.worker.held.map (·.id))
    (hqueue : executor.queue.map (·.id) = service.executor.queue.map (·.id))
    (habandoned : executor.abandoned.map (·.id) = service.executor.abandoned.map (·.id))
    (hstranded : executor.stranded.map (·.id) = service.executor.stranded.map (·.id)) :
    account { service with executor := executor } = service.account := by
  simp only [account, hmetrics, hresolved, hstarted, hheld, hqueue, habandoned, hstranded]

theorem turns_takeNext (service : Service Work) :
    service.account.Turns
      (account { service with executor := service.executor.takeNext }) := by
  rcases Executor.takeNext_cases service.executor with h | ⟨pass, rest, hidle, hqueue, -, h⟩ |
    ⟨pass, rest, hidle, hqueue, -, h⟩
  · rw [h]
  · have hheld : service.account.held = none := by simp [account, hidle, Worker.held]
    have hfront : service.account.queue = pass.id :: rest.map (·.id) := by simp [account, hqueue]
    rw [h]
    exact .single (.skip hheld hfront)
  · have hheld : service.account.held = none := by simp [account, hidle, Worker.held]
    have hfront : service.account.queue = pass.id :: rest.map (·.id) := by simp [account, hqueue]
    rw [h]
    exact .single (.take hheld hfront)

theorem turns_noticeCancellation (service : Service Work) :
    service.account.Turns
      (account { service with executor := service.executor.noticeCancellation }) := by
  rcases Executor.noticing_cases service.executor with ⟨-, h⟩ | ⟨pass, hrunning, -, -, h⟩ |
    ⟨pass, hrunning, -, -, h⟩
  · rw [h]
  · have hsame : account { service with
        executor := { service.executor with worker := .draining pass } } = service.account :=
      account_congr rfl rfl rfl (by rw [hrunning]; rfl) rfl rfl rfl
    rw [h, hsame]
  · have hheld : service.account.held = some pass.id := by simp [account, hrunning, Worker.held]
    have hturn := Account.Turn.abandon hheld
    rw [h]
    simpa [account, Worker.held] using Relation.ReflTransGen.single hturn

theorem account_setWork (service : Service Work) (id : PassId) (work : Work) :
    account { service with executor := service.executor.setWork id work } = service.account := by
  have hids : ∀ passes : List (Pass Work),
      (passes.map (Pass.withWork id work)).map (·.id) = passes.map (·.id) := by
    intro passes
    simp [Function.comp_def]
  refine account_congr rfl rfl rfl ?_ (hids _) (hids _) (hids _)
  rw [Executor.held_setWork, Option.map_map]
  simp [Function.comp_def]

/-- The numbers of the passes that stay when the one with a given number leaves. -/
theorem ids_filter_ne (id : PassId) (passes : List (Pass Work)) :
    (passes.filter (·.id ≠ id)).map (·.id) = (passes.map (·.id)).filter (· ≠ id) := by
  rw [List.filter_map]
  rfl

/-- Nobody leaves a list of passes by a number that is not there. -/
theorem filter_ne_of_not_mem {id : PassId} {ids : List PassId} (habsent : id ∉ ids) :
    ids.filter (· ≠ id) = ids :=
  List.filter_eq_self.mpr fun _ hmem => decide_eq_true fun hsame => habsent (hsame ▸ hmem)

/-- The account when the work of a pass has returned that the worker does not have. -/
theorem turns_forget (hkept : service.account.Kept) {id : PassId}
    (hleft : id ∈ service.account.leftover) :
    service.account.Turns
      (account { service with
        executor := service.executor.forget id
        returned := service.returned ++ [id] }) := by
  have happart := List.disjoint_of_nodup_append hkept.leftover_nodup
  rcases List.mem_append.mp hleft with habandoned | hstranded
  · have hkeeps := filter_ne_of_not_mem (happart habandoned)
    have hany : service.executor.abandoned.any (·.id = id) = true := by
      simpa [account] using habandoned
    have hturn := Account.Turn.returnLate habandoned
    unfold Executor.forget
    rw [if_pos hany]
    simp only [account, ids_filter_ne] at hturn hkeeps ⊢
    rw [hkeeps]
    exact .single hturn
  · have habsent : id ∉ service.account.abandoned := fun hmem => happart hmem hstranded
    have hnot : ¬ service.executor.abandoned.any (·.id = id) = true := by
      simpa [account] using habsent
    have hturn := Account.Turn.returnUnheard hstranded
    unfold Executor.forget
    rw [if_neg hnot]
    simp only [account, ids_filter_ne] at hturn ⊢
    exact .single hturn

/-- Nothing is forgotten with a pass that is not left over. -/
theorem forget_of_not_leftover {executor : Executor Work} {id : PassId}
    (habsent : id ∉ executor.leftover.map (·.id)) : executor.forget id = executor := by
  have hother : ∀ pass ∈ executor.leftover, pass.id ≠ id :=
    fun pass hmem hsame => habsent (hsame ▸ List.mem_map_of_mem hmem)
  have habandoned : ¬ executor.abandoned.any (·.id = id) = true := by
    intro hany
    obtain ⟨pass, hmem, hsame⟩ := List.any_eq_true.mp hany
    exact hother pass (List.mem_append_left _ hmem) (of_decide_eq_true hsame)
  have hstranded : executor.stranded.filter (·.id ≠ id) = executor.stranded :=
    List.filter_eq_self.mpr fun pass hmem =>
      decide_eq_true (hother pass (List.mem_append_right _ hmem))
  unfold Executor.forget
  rw [if_neg habandoned]
  dsimp only
  rw [hstranded]

theorem leftover_account (service : Service Work) :
    service.account.leftover = service.executor.leftover.map (·.id) := by
  simp [account, Account.leftover, Executor.leftover]

/-- The work of the pass returns that the worker has. -/
theorem turns_finish (hkept : service.account.Kept) {pass : Pass Work}
    (hheld : service.executor.worker.held = some pass) (current : Option PassId)
    (result : Except Error Report) :
    service.account.Turns
      (account { service with
        executor := Executor.forget
          { service.executor with
            worker := .idle
            current := current
            resolved := service.executor.resolved ++ [(pass.id, .ofResult result)]
            metrics := service.executor.metrics.recordResult result } pass.id
        returned := service.returned ++ [pass.id] }) := by
  have hhas : service.account.held = some pass.id := by simp [account, hheld]
  have hdistinct := hkept.begun_nodup
  rw [hhas, leftover_account] at hdistinct
  have habsent := (List.nodup_cons.mp hdistinct).1
  let ended : Executor Work :=
    { service.executor with
      worker := .idle
      current := current
      resolved := service.executor.resolved ++ [(pass.id, .ofResult result)]
      metrics := service.executor.metrics.recordResult result }
  have hsame : ended.forget pass.id = ended := forget_of_not_leftover habsent
  have hturn := Account.Turn.finish hhas result
  show service.account.Turns (account { service with
    executor := ended.forget pass.id, returned := service.returned ++ [pass.id] })
  rw [hsame]
  exact .single hturn

theorem turns_returns (hkept : service.account.Kept) (id : PassId)
    (result : Except Error Report) :
    service.account.Turns (service.move (.returns id result)).account := by
  simp only [move]
  split
  · next pass hfound =>
      have hbegun : pass ∈ service.executor.begun := List.mem_of_find?_eq_some hfound
      have hid : pass.id = id := by simpa using List.find?_some hfound
      rcases Executor.workReturned_cases service.executor id result with
        ⟨running, hrunning, rfl, h⟩ | ⟨draining, hdraining, rfl, h⟩ | ⟨hother, h⟩
      · rw [h]
        exact turns_finish hkept (by rw [hrunning]; rfl) _ result
      · rw [h]
        exact turns_finish hkept (by rw [hdraining]; rfl) _ (.ok { interrupted := true })
      · rw [h]
        apply turns_forget hkept
        rw [leftover_account, ← hid]
        rw [Executor.begun_eq, List.mem_append, Option.mem_toList] at hbegun
        rcases hbegun with hheld | hleft
        · exact absurd hid (hother pass hheld)
        · exact List.mem_map_of_mem hleft
  · exact .refl

theorem turns_move (hkept : service.account.Kept) (move : Move Work) :
    service.account.Turns (service.move move).account := by
  cases move with
  | takeNext => exact turns_takeNext service
  | noticeCancellation => exact turns_noticeCancellation service
  | progress id work =>
      simp only [Service.move, account_setWork]
      exact .refl
  | returns id result => exact turns_returns hkept id result

theorem account_cancelCurrent (service : Service Work) :
    account { service with executor := service.executor.cancelCurrent.2 } = service.account := by
  cases hcurrent : service.executor.current with
  | none => simp only [Executor.cancelCurrent, hcurrent]
  | some id =>
      simp only [Executor.cancelCurrent, hcurrent]
      refine account_congr rfl rfl rfl ?_ ?_ rfl rfl
      · cases hworker : service.executor.worker <;>
          simp [Executor.tellToStop, hworker, Worker.held]
      · simp [Executor.tellToStop, Function.comp_def]

theorem account_shutdownNow (service : Service Work) :
    account { service with executor := service.executor.shutdownNow } = service.account := by
  cases hclosed : service.executor.closed with
  | true => rw [Executor.shutdownNow_of_closed hclosed]
  | false =>
      rw [Executor.shutdownNow_of_open hclosed]
      exact service.account_cancelCurrent

/-- A service whose account came about by turns. -/
structure Sound (service : Service Work) : Prop where
  disciplined : service.executor.Disciplined
  turns : Account.Turns {} service.account

theorem sound_new (name : String) : (new name : Service Work).Sound where
  disciplined := Executor.disciplined_new name
  turns := .refl

namespace Sound

theorem kept (hsound : service.Sound) : service.account.Kept :=
  Account.kept_empty.turns hsound.turns

/-- What changes nothing that the account is about can be added or left out. -/
theorem of_same (hsound : service.Sound) {after : Service Work}
    (hdisciplined : after.executor.Disciplined) (hsame : after.account = service.account) :
    after.Sound := ⟨hdisciplined, hsame ▸ hsound.turns⟩

theorem move (hsound : service.Sound) (move : Move Work) : (service.move move).Sound where
  disciplined := by
    cases move with
    | takeNext => exact hsound.disciplined.takeNext
    | noticeCancellation => exact hsound.disciplined.noticeCancellation
    | progress id work => exact hsound.disciplined.setWork id work
    | returns id result =>
        simp only [Service.move]
        split
        · exact hsound.disciplined.workReturned id result
        · exact hsound.disciplined
  turns := hsound.turns.trans (turns_move hsound.kept move)

theorem moves (hsound : service.Sound) (moves : List (Move Work)) :
    (moves.foldl Service.move service).Sound := by
  induction moves generalizing service with
  | nil => exact hsound
  | cons move rest ih => exact ih (hsound.move move)

/-- The numbers that were given are past. -/
theorem admitted_lt (hsound : service.Sound) {id : PassId} (hmem : id ∈ service.admitted) :
    id < service.executor.nextId := by
  have hline : service.executor.accepted = service.admitted := by
    rw [Executor.accepted, ← waiting_account]
    exact hsound.kept.inLine
  exact hsound.disciplined.numbered id (hline ▸ hmem)

theorem submit (hsound : service.Sound) (work : Work) : (service.submit work).Sound := by
  have hdisciplined := hsound.disciplined.submit work
  cases hclosed : service.executor.closed with
  | true =>
      have hrefused := Executor.submit_of_closed hclosed work
      apply hsound.of_same hdisciplined
      simp only [Service.submit, hrefused]
      simp [account, Except.toOption]
  | false =>
      have haccepted := hsound.disciplined.submit_of_open hclosed work
      refine ⟨hdisciplined, hsound.turns.tail ?_⟩
      have hfresh : service.executor.nextId ∉ service.account.admitted :=
        fun hmem => Nat.lt_irrefl _ (hsound.admitted_lt hmem)
      have hnext := (Executor.cancelCurrent_places service.executor).2.2.1
      have hturn := Account.Turn.accept hfresh
      rw [← account_cancelCurrent] at hturn ⊢
      simp only [Service.submit, haccepted]
      simpa [account, Except.toOption, Executor.join, hnext] using hturn

/-- The worker is dismissed, for the first time. -/
theorem dismiss (hsound : service.Sound) (hclosed : service.executor.closed = true)
    (hfirst : service.executor.stranded = []) : service.dismiss.Sound where
  disciplined := hsound.disciplined.dismissWorker hclosed
  turns := by
    have hnone : service.account.stranded = [] := by simp [account, hfirst]
    have hgone : (Worker.gone : Worker Work).held = none := rfl
    have hturn := Account.Turn.dismiss hnone
    rw [waiting_account] at hturn
    refine hsound.turns.tail ?_
    cases hheld : service.executor.worker.held <;>
      simpa [account, Service.dismiss, Executor.dismissWorker, Executor.unresolved, hheld, hfirst,
        hgone, Function.comp_def] using hturn

end Sound

/-- What moves leave alone. -/
structure Undisturbed (service after : Service Work) : Prop where
  closed : after.executor.closed = service.executor.closed
  awaited : after.executor.awaited = service.executor.awaited
  stranded : service.executor.stranded = [] → after.executor.stranded = []
  unresolved : service.executor.unresolved = [] → after.executor.unresolved = []
  dismissed : after.dismissed = service.dismissed
  answers : after.answers = service.answers

theorem Undisturbed.refl (service : Service Work) : service.Undisturbed service :=
  ⟨rfl, rfl, id, id, rfl, rfl⟩

theorem Undisturbed.trans {middle after : Service Work} (hfirst : service.Undisturbed middle)
    (hsecond : middle.Undisturbed after) : service.Undisturbed after where
  closed := hsecond.closed.trans hfirst.closed
  awaited := hsecond.awaited.trans hfirst.awaited
  stranded := hsecond.stranded ∘ hfirst.stranded
  unresolved := hsecond.unresolved ∘ hfirst.unresolved
  dismissed := hsecond.dismissed.trans hfirst.dismissed
  answers := hsecond.answers.trans hfirst.answers

/-- The worker that has finished neither takes a pass nor has one. -/
theorem unresolved_eq_nil {executor : Executor Work} :
    executor.unresolved = [] ↔ executor.worker.held = none ∧ executor.queue = [] := by
  simp [Executor.unresolved, Option.toList_eq_nil_iff]

/-- The end of a pass leaves the others where they are. -/
theorem undisturbed_forget {executor : Executor Work}
    (hclosed : executor.closed = service.executor.closed)
    (hawaited : executor.awaited = service.executor.awaited)
    (hstranded : executor.stranded = service.executor.stranded)
    (hqueue : executor.queue = service.executor.queue)
    (hheld : service.executor.worker.held = none → executor.worker.held = none) (id : PassId) :
    service.Undisturbed { service with
      executor := executor.forget id, returned := service.returned ++ [id] } := by
  obtain ⟨metrics, h⟩ := executor.forget_eq id
  rw [h]
  refine ⟨hclosed, hawaited, fun hnone => ?_, fun hnone => ?_, rfl, rfl⟩
  · simp [hstranded, hnone]
  · obtain ⟨hidle, hempty⟩ := unresolved_eq_nil.mp hnone
    exact unresolved_eq_nil.mpr ⟨hheld hidle, hqueue.trans hempty⟩

theorem undisturbed_move (service : Service Work) (move : Move Work) :
    service.Undisturbed (service.move move) := by
  cases move with
  | takeNext =>
      simp only [Service.move]
      rcases Executor.takeNext_cases service.executor with h | ⟨pass, rest, -, hqueue, -, h⟩ |
        ⟨pass, rest, -, hqueue, -, h⟩
      · rw [h]
        exact .refl service
      · rw [h]
        refine ⟨rfl, rfl, id, fun hnone => ?_, rfl, rfl⟩
        rw [(unresolved_eq_nil.mp hnone).2] at hqueue
        cases hqueue
      · rw [h]
        refine ⟨rfl, rfl, id, fun hnone => ?_, rfl, rfl⟩
        rw [(unresolved_eq_nil.mp hnone).2] at hqueue
        cases hqueue
  | noticeCancellation =>
      simp only [Service.move]
      rcases Executor.noticing_cases service.executor with ⟨-, h⟩ | ⟨pass, hrunning, -, -, h⟩ |
        ⟨pass, hrunning, -, -, h⟩
      · rw [h]
        exact .refl service
      · rw [h]
        refine ⟨rfl, rfl, id, fun hnone => ?_, rfl, rfl⟩
        have hheld := (unresolved_eq_nil.mp hnone).1
        rw [hrunning] at hheld
        cases hheld
      · rw [h]
        refine ⟨rfl, rfl, id, fun hnone => ?_, rfl, rfl⟩
        exact unresolved_eq_nil.mpr ⟨rfl, (unresolved_eq_nil.mp hnone).2⟩
  | progress id work =>
      refine ⟨rfl, rfl, fun hnone => ?_, fun hnone => ?_, rfl, rfl⟩
      · simp [Service.move, Executor.setWork, hnone]
      · simp [Service.move, Executor.unresolved_setWork, hnone]
  | returns id result =>
      simp only [Service.move]
      split
      · rcases Executor.workReturned_cases service.executor id result with ⟨pass, -, -, h⟩ |
          ⟨pass, -, -, h⟩ | ⟨-, h⟩
        · rw [h]
          refine undisturbed_forget ?_ ?_ ?_ ?_ (fun _ => ?_) id <;> rfl
        · rw [h]
          refine undisturbed_forget ?_ ?_ ?_ ?_ (fun _ => ?_) id <;> rfl
        · rw [h]
          exact undisturbed_forget rfl rfl rfl rfl (fun hidle => hidle) id
      · exact .refl service

theorem undisturbed_moves (service : Service Work) (moves : List (Move Work)) :
    service.Undisturbed (moves.foldl move service) := by
  induction moves generalizing service with
  | nil => exact .refl service
  | cons move rest ih => exact (undisturbed_move service move).trans (ih _)

/-- A service that keeps its word to those who wait for the worker. -/
structure Upright (service : Service Work) : Prop extends service.Sound where
  /-- Before anybody waited, nobody was dismissed. -/
  unwaited : service.executor.awaited = false →
    service.executor.stranded = [] ∧ service.dismissed = [] ∧ service.answers = []
  /-- Once somebody has waited, every pass is resolved. -/
  waited : service.executor.awaited = true →
    service.executor.closed = true ∧ service.executor.unresolved = []
  /-- Passes are given up only if whoever waited is told so. -/
  told : service.dismissed ≠ [] → false ∈ service.answers

theorem upright_new (name : String) : (new name : Service Work).Upright where
  toSound := sound_new name
  unwaited _ := ⟨rfl, rfl, rfl⟩
  waited hawaited := nomatch hawaited
  told hdismissed := absurd rfl hdismissed

namespace Upright

/-- Whatever leaves undisturbed who has waited keeps the word that was given. -/
theorem of_undisturbed (hupright : service.Upright) {after : Service Work} (hsound : after.Sound)
    (hundisturbed : service.Undisturbed after) : after.Upright where
  toSound := hsound
  unwaited hnot := by
    obtain ⟨hstranded, hdismissed, hanswers⟩ :=
      hupright.unwaited (hundisturbed.awaited.symm.trans hnot)
    exact ⟨hundisturbed.stranded hstranded, hundisturbed.dismissed.trans hdismissed,
      hundisturbed.answers.trans hanswers⟩
  waited hwas := by
    obtain ⟨hclosed, hnone⟩ := hupright.waited (hundisturbed.awaited.symm.trans hwas)
    exact ⟨hundisturbed.closed.trans hclosed, hundisturbed.unresolved hnone⟩
  told hdismissed := by
    rw [hundisturbed.dismissed] at hdismissed
    rw [hundisturbed.answers]
    exact hupright.told hdismissed

theorem move (hupright : service.Upright) (move : Move Work) : (service.move move).Upright :=
  hupright.of_undisturbed (hupright.toSound.move move) (undisturbed_move service move)

/-- Telling a pass to stop disturbs nobody. -/
theorem cancelCurrent (hupright : service.Upright) :
    Upright { service with executor := service.executor.cancelCurrent.2 } := by
  have hwaits := hupright.disciplined.unresolved_cancelCurrent
  obtain ⟨worker, queue, h, -⟩ := service.executor.cancelCurrent_eq
  apply hupright.of_undisturbed
  · exact hupright.toSound.of_same hupright.disciplined.cancelCurrent
      (account_cancelCurrent service)
  · refine ⟨?_, ?_, ?_, ?_, rfl, rfl⟩
    · rw [h]
    · rw [h]
    · rw [h]
      exact id
    · intro hnone
      rw [hwaits, hnone]
      rfl

theorem submit (hupright : service.Upright) (work : Work) : (service.submit work).Upright := by
  have hsound := hupright.toSound.submit work
  cases hclosed : service.executor.closed with
  | true =>
      have hrefused := Executor.submit_of_closed hclosed work
      simp only [Service.submit, hrefused, Except.toOption, Option.toList_none,
        List.append_nil] at hsound ⊢
      exact hupright.of_undisturbed hsound ⟨rfl, rfl, id, id, rfl, rfl⟩
  | false =>
      have haccepted := hupright.disciplined.submit_of_open hclosed work
      -- Nobody has waited yet, so nothing was promised.
      have hnobody : service.executor.awaited = false := by
        apply eq_false_of_ne_true
        intro hawaited
        have hshut := (hupright.waited hawaited).1
        rw [hclosed] at hshut
        cases hshut
      obtain ⟨hstranded, hdismissed, hanswers⟩ := hupright.unwaited hnobody
      obtain ⟨worker, queue, h, -⟩ := service.executor.cancelCurrent_eq
      simp only [Service.submit, haccepted, h, Executor.join] at hsound ⊢
      refine ⟨hsound, fun _ => ⟨hstranded, hdismissed, hanswers⟩, fun hawaited => ?_, hupright.told⟩
      exact absurd (hnobody.symm.trans hawaited) Bool.false_ne_true

theorem shutdownNow (hupright : service.Upright) :
    Upright { service with executor := service.executor.shutdownNow } := by
  cases hclosed : service.executor.closed with
  | true => rwa [Executor.shutdownNow_of_closed hclosed]
  | false =>
      have hcancelled := hupright.cancelCurrent
      have hsame := account_shutdownNow service
      have hkept := hupright.disciplined.shutdownNow
      rw [Executor.shutdownNow_of_open hclosed] at hsame hkept ⊢
      refine ⟨hupright.toSound.of_same hkept hsame, hcancelled.unwaited, fun hawaited => ?_,
        hcancelled.told⟩
      exact ⟨rfl, (hcancelled.waited hawaited).2⟩

/-- Somebody has waited for the worker, and every pass is resolved. -/
theorem answer (hsound : service.Sound) (hawaited : service.executor.awaited = true)
    (hclosed : service.executor.closed = true) (hnone : service.executor.unresolved = [])
    {verdict : Bool} (htold : service.dismissed ≠ [] → verdict = false ∨ false ∈ service.answers) :
    (service.answer verdict).Upright where
  toSound := hsound.of_same hsound.disciplined rfl
  unwaited hnot := absurd (hawaited.symm.trans hnot) (Bool.false_ne_true ∘ Eq.symm)
  waited _ := ⟨hclosed, hnone⟩
  told hdismissed := by
    rcases htold hdismissed with rfl | hbefore
    · exact List.mem_append_right _ List.mem_cons_self
    · exact List.mem_append_left _ hbefore

theorem await (hupright : service.Upright) (hclosed : service.executor.closed = true)
    (hfirst : service.executor.awaited = false) (meanwhile : List (Move Work)) (hasty : Bool) :
    (service.await meanwhile hasty).Upright := by
  obtain ⟨hstranded, hdismissed, -⟩ := hupright.unwaited hfirst
  let waiting : Service Work :=
    { service with executor := { service.executor with awaited := true } }
  have hwaiting : waiting.Sound := hupright.toSound.of_same { hupright.disciplined with } rfl
  have hlater := hwaiting.moves meanwhile
  have hmoved := waiting.undisturbed_moves meanwhile
  unfold Service.await
  dsimp only
  split
  · have hgone : (meanwhile.foldl Service.move waiting).dismiss.Sound :=
      hlater.dismiss (hmoved.closed.trans hclosed) (hmoved.stranded hstranded)
    exact answer hgone hmoved.awaited (hmoved.closed.trans hclosed) rfl fun _ => Or.inl rfl
  · next hfinished =>
      have hnone : (meanwhile.foldl Service.move waiting).executor.unresolved = [] := by
        simpa using (by simpa using hfinished : _ ∧ _).2
      refine answer hlater hmoved.awaited (hmoved.closed.trans hclosed) hnone fun hsome => ?_
      exact absurd (hmoved.dismissed.trans hdismissed) hsome

theorem shutdown (hupright : service.Upright) (meanwhile : List (Move Work)) (hasty : Bool) :
    (service.shutdown meanwhile hasty).Upright := by
  have hclosing := hupright.shutdownNow
  unfold Service.shutdown
  dsimp only
  split
  · next hawaited =>
      obtain ⟨hclosed, hnone⟩ := hclosing.waited hawaited
      exact answer hclosing.toSound hawaited hclosed hnone fun hsome => Or.inr (hclosing.told hsome)
  · next hfirst =>
      exact hclosing.await service.executor.closed_shutdownNow (eq_false_of_ne_true hfirst)
        meanwhile hasty

theorem serve (hupright : service.Upright) (step : ServiceStep Work) :
    (service.serve step).Upright := by
  cases step with
  | submit work => exact hupright.submit work
  | cancelCurrent => exact hupright.cancelCurrent
  | shutdownNow => exact hupright.shutdownNow
  | shutdown meanwhile hasty => exact hupright.shutdown meanwhile hasty
  | move move => exact hupright.move move

theorem served (hupright : service.Upright) (steps : List (ServiceStep Work)) :
    (service.served steps).Upright := by
  induction steps generalizing service with
  | nil => exact hupright
  | cons step rest ih => exact ih (hupright.serve step)

end Upright

section

variable {World : Type}

/-- One stride of an executor is a move of its service. -/
theorem exists_move_of_stride {step : GoOn Work World} {before later : Executor Work × World}
    (hstride : Executor.Stride step before later) (hstart : service.executor = before.1) :
    ∃ move : Move Work, (service.move move).executor = later.1 := by
  cases hstride with
  | takeNext => exact ⟨.takeNext, congrArg Executor.takeNext hstart⟩
  | noticeCancellation => exact ⟨.noticeCancellation, congrArg Executor.noticeCancellation hstart⟩
  | @goOn executor pass world hbegun =>
      obtain rfl : service.executor = executor := hstart
      unfold Executor.goOn
      split
      · next work _ _ => exact ⟨.progress pass.id work, rfl⟩
      · next result _ _ =>
          refine ⟨.returns pass.id result, ?_⟩
          simp only [move]
          split
          · rfl
          · next hnone =>
              have hother := List.find?_eq_none.mp hnone pass hbegun
              simp at hother

theorem exists_moves_of_strides {step : GoOn Work World} {before later : Executor Work × World}
    (hstrides : Executor.Strides step before later) (hstart : service.executor = before.1) :
    ∃ moves : List (Move Work), (moves.foldl move service).executor = later.1 := by
  induction hstrides with
  | refl => exact ⟨[], hstart⟩
  | tail _ hstride ih =>
      obtain ⟨moves, hmoved⟩ := ih
      obtain ⟨last, hlast⟩ := exists_move_of_stride hstride hmoved
      exact ⟨moves ++ [last], by rw [List.foldl_append]; exact hlast⟩

end

theorem served_append (service : Service Work) (first later : List (ServiceStep Work)) :
    service.served (first ++ later) = (service.served first).served later :=
  List.foldl_append

theorem served_moves (service : Service Work) (moves : List (Move Work)) :
    service.served (moves.map .move) = moves.foldl move service := by
  induction moves generalizing service with
  | nil => rfl
  | cons move rest ih => exact ih _

/-- A worker that has come to rest without a pass leaves none in the queue. -/
theorem unresolved_of_settled {executor : Executor ScriptedWork}
    (hdisciplined : executor.Disciplined) (hsettled : executor.Settled) :
    executor.unresolved.isEmpty = !executor.worker.held.isSome := by
  cases hworker : executor.worker with
  | idle => simp [Executor.unresolved, hworker, Worker.held, hsettled.taken hworker]
  | gone => simp [Executor.unresolved, hworker, Worker.held, (hdisciplined.gone hworker).2]
  | _ => simp [Executor.unresolved, hworker, Worker.held]

theorem executor_await (service : Service Work) {meanwhile : List (Move Work)}
    {later : Executor Work}
    (hlater : (meanwhile.foldl move
      { service with executor := { service.executor with awaited := true } }).executor = later) :
    (service.await meanwhile false).executor =
      if later.unresolved.isEmpty then later else later.dismissWorker := by
  unfold await
  dsimp only
  rw [hlater]
  cases later.unresolved.isEmpty with
  | true => exact hlater
  | false => exact congrArg Executor.dismissWorker hlater

/-- Shutting down, when the work of the passes is settled beforehand. -/
theorem exists_shutdown {service : Service ScriptedWork}
    (hdisciplined : service.executor.Disciplined) :
    ∃ meanwhile, (service.shutdown meanwhile false).executor =
      (service.executor.perform .shutdown).2 := by
  let waiting : Service ScriptedWork :=
    { service with executor := { service.executor.shutdownNow with awaited := true } }
  have hwaiting : waiting.executor.Disciplined := { hdisciplined.shutdownNow with }
  have hstrides := Executor.strides_settle ScriptedWork.goOn hwaiting ()
  obtain ⟨meanwhile, hmoved⟩ := exists_moves_of_strides hstrides (rfl : waiting.executor = _)
  have hfinished := unresolved_of_settled (hstrides.disciplined hwaiting) hwaiting.settled_rest
  refine ⟨meanwhile, ?_⟩
  by_cases hawaited : service.executor.shutdownNow.awaited = true
  · simp only [Executor.perform, Executor.shutdown, shutdown, if_pos hawaited]
    rfl
  · have hwaited := executor_await { service with executor := service.executor.shutdownNow } hmoved
    simp only [Executor.perform, Executor.shutdown, shutdown, if_neg hawaited]
    rw [hwaited, hfinished]
    cases (Executor.settle ScriptedWork.goOn waiting.executor ()).1.worker.held.isSome with
    | true => rfl
    | false => rfl

/-- Whatever happens to an executor whose work is settled beforehand happens to it in service. -/
theorem exists_served_happen {service : Service ScriptedWork}
    (hdisciplined : service.executor.Disciplined) (event : ExecutorEvent) :
    ∃ steps, (service.served steps).executor = service.executor.happen event := by
  cases event with
  | act action =>
      cases action with
      | submit work => exact ⟨[.submit work], rfl⟩
      | release id =>
          show ∃ steps, (service.served steps).executor = service.executor.release id
          unfold Executor.release
          split
          · next pass _ => exact ⟨[.move (.progress id { pass.work with released := true })], rfl⟩
          · exact ⟨[], rfl⟩
      | cancelCurrent => exact ⟨[.cancelCurrent], rfl⟩
      | shutdownNow => exact ⟨[.shutdownNow], rfl⟩
      | shutdown =>
          obtain ⟨meanwhile, hshut⟩ := exists_shutdown hdisciplined
          exact ⟨[.shutdown meanwhile false], hshut⟩
  | takeNext => exact ⟨[.move .takeNext], rfl⟩
  | noticeCancellation => exact ⟨[.move .noticeCancellation], rfl⟩
  | goOn id =>
      unfold Executor.happen
      dsimp only
      split
      · next pass hfound =>
          have hbegun : pass ∈ service.executor.begun := List.mem_of_find?_eq_some hfound
          have hstride : Executor.Stride ScriptedWork.goOn (service.executor, ())
              (Executor.goOn ScriptedWork.goOn pass service.executor ()) := .goOn () hbegun
          obtain ⟨move, hmoved⟩ := exists_move_of_stride hstride rfl
          exact ⟨[.move move], hmoved⟩
      · exact ⟨[], rfl⟩
  | rest =>
      have hstrides := Executor.strides_settle ScriptedWork.goOn hdisciplined ()
      obtain ⟨moves, hmoved⟩ := exists_moves_of_strides hstrides (rfl : service.executor = _)
      exact ⟨moves.map .move, (congrArg executor (served_moves service moves)).trans hmoved⟩
  | giveUp =>
      refine ⟨[.shutdown [] true], ?_⟩
      show (service.shutdown [] true).executor = service.executor.giveUp
      unfold shutdown Executor.giveUp
      dsimp only
      split
      · rfl
      · rfl

theorem exists_served_after {service : Service ScriptedWork} (hupright : service.Upright)
    (history : List ExecutorEvent) :
    ∃ steps, (service.served steps).executor = service.executor.after history := by
  induction history generalizing service with
  | nil => exact ⟨[], rfl⟩
  | cons event rest ih =>
      obtain ⟨first, hfirst⟩ := exists_served_happen hupright.disciplined event
      obtain ⟨later, hlater⟩ := ih (hupright.served first)
      refine ⟨first ++ later, ?_⟩
      rw [served_append, hlater, hfirst]
      rfl

/-- Every session of bursts is the course of a service. -/
theorem exists_served_run (name : String) (bursts : List (List ExecutorAction)) :
    ∃ steps, ((new name).served steps).executor = (Executor.new name).run bursts := by
  rw [Executor.run_eq_after]
  exact exists_served_after (upright_new name) _

end Service

end Custody
