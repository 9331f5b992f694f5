/-
# What is granted and what is withdrawn

Whoever asks for an entry to be armed is told whether that was done, and whoever takes armings back is
told how many went.  So everything that a scheduler has armed can be said without looking into it: an
entry is granted with the deadline given for it when the answer is yes, a delay being counted from the
instant of the request, and a pass is granted what is taken of its candidates.

What is granted is numbered in the order in which it is granted, and each number ends once: it fires at
the first rest at which the deadline given for it has been reached, unless it is withdrawn before.
-/

import Custody.Proofs.Scheduler.Passes

namespace Custody

namespace Scheduler

variable {K : Type}

/-- Entries as armings under successive numbers. -/
def numberFrom (next : Nat) (granted : List (Candidate K)) : List (Arming K) :=
  (granted.zipIdx next).map fun entry => ⟨entry.1.id, entry.1.deadline, entry.2⟩

theorem numberFrom_append (next : Nat) (first second : List (Candidate K)) :
    numberFrom next (first ++ second) =
      numberFrom next first ++ numberFrom (next + first.length) second := by
  rw [numberFrom, List.zipIdx_append, List.map_append, numberFrom, numberFrom]

theorem map_id_numberFrom (next : Nat) (granted : List (Candidate K)) :
    (numberFrom next granted).map (·.id) = granted.map (·.id) := by
  have hfirst : (fun entry : Candidate K × Nat => entry.1.id) = (·.id) ∘ Prod.fst := rfl
  rw [numberFrom, List.map_map]
  show (granted.zipIdx next).map (fun entry => entry.1.id) = granted.map (·.id)
  rw [hfirst, ← List.map_map, List.zipIdx_map_fst]

/-- Whether a locality is installed or refused as older than the installed one. -/
def accepts (scheduler : Scheduler K) (topology : TopologyId) : Bool :=
  scheduler.gate.topology.all (· ≤ topology)

/-- A bulk cancellation takes back what the locality does not cover, if the locality is accepted. -/
theorem cancelUnowned_eq (scheduler : Scheduler K) (topology : TopologyId) (locality : Locality K) :
    scheduler.cancelUnowned topology locality =
      if scheduler.accepts topology then
        { scheduler with gate := ⟨some topology, locality⟩ }.disarm fun arming =>
          !locality.owns arming.id
      else (0, scheduler) := by
  rcases cancelUnowned_cases scheduler topology locality with ⟨newer, htold, holder, h⟩ | ⟨hle, h⟩
  · have hrefused : scheduler.accepts topology = false := by
      simpa [accepts, htold, Option.all] using holder
    rw [h, hrefused]
    rfl
  · have haccepted : scheduler.accepts topology = true := by
      cases hcurrent : scheduler.gate.topology with
      | none => simp [accepts, hcurrent]
      | some current => simpa [accepts, hcurrent] using hle current hcurrent
    rw [h, if_pos haccepted]

/-- From one scheduler to another some entries were armed, under the next numbers, and some armings
were cancelled. -/
structure Turnover (granted : List (Candidate K)) (withdrawn : List (Arming K))
    (before after : Scheduler K) : Prop where
  armings : after.armings =
    (numberFrom (before.generation + 1) granted).reverse ++ before.armings
  generation : after.generation = before.generation + granted.length
  cancellations : after.cancellations = withdrawn.reverse ++ before.cancellations

namespace Turnover

variable {before middle after : Scheduler K} {granted later : List (Candidate K)}
  {withdrawn more : List (Arming K)}

/-- Where neither journal nor numbers change, nothing is turned over. -/
theorem of_same (hjournal : after.journal = before.journal)
    (hgeneration : after.generation = before.generation) : Turnover [] [] before after :=
  ⟨by rw [Scheduler.armings, hjournal]; rfl, hgeneration,
    by rw [Scheduler.cancellations, hjournal]; rfl⟩

theorem trans (hfirst : Turnover granted withdrawn before middle)
    (hsecond : Turnover later more middle after) :
    Turnover (granted ++ later) (withdrawn ++ more) before after where
  armings := by
    have hnext : before.generation + 1 + granted.length = middle.generation + 1 := by
      rw [hfirst.generation]
      omega
    rw [hsecond.armings, hfirst.armings, numberFrom_append, List.reverse_append, hnext,
      List.append_assoc]
  generation := by rw [hsecond.generation, hfirst.generation, List.length_append, Nat.add_assoc]
  cancellations := by
    rw [hsecond.cancellations, hfirst.cancellations, List.reverse_append, List.append_assoc]

theorem arm (scheduler : Scheduler K) (id : K) (deadline : Instant) :
    Turnover [⟨id, deadline⟩] [] scheduler (scheduler.arm id deadline) := ⟨rfl, rfl, rfl⟩

theorem disarm (scheduler : Scheduler K) (leaves : Arming K → Bool) :
    Turnover [] (scheduler.armed.filter leaves) scheduler (scheduler.disarm leaves).2 :=
  ⟨armings_disarm scheduler leaves, rfl, cancellations_disarm scheduler leaves⟩

end Turnover

variable [DecidableEq K]

/-- Whether a scheduler arms an entry when it is asked to. -/
def admits (scheduler : Scheduler K) (id : K) : Bool :=
  !scheduler.closed && scheduler.gate.locality.owns id && !scheduler.contains id

/-- The entries that a command gets armed, with the deadlines given for them: those of a request that is
answered with yes, or those that a pass takes among its candidates. -/
def granted (scheduler : Scheduler K) (command : SchedulerCommand K) : List (Candidate K) :=
  match command, (scheduler.perform command).1 with
  | .schedule id deadline, .verdict true => [⟨id, deadline⟩]
  | .scheduleAfter id delay, .verdict true => [⟨id, scheduler.now + delay⟩]
  | .reconcile old new script, _ =>
      scheduler.takings (new.gainedSince old) (script.offers (new.gainedSince old))
  | _, _ => []

/-- The armings that a command takes back: that of an entry whose cancellation is answered with yes,
those that an accepted locality does not cover, or all when the scheduler ends. -/
def withdrawn (scheduler : Scheduler K) (command : SchedulerCommand K) : List (Arming K) :=
  match command, (scheduler.perform command).1 with
  | .cancel id, .verdict true => scheduler.armed.filter fun arming => arming.id = id
  | .cancelUnowned topology locality, _ =>
      if scheduler.accepts topology then
        scheduler.armed.filter fun arming => !locality.owns arming.id
      else []
  | .shutdown, _ | .drop, _ => scheduler.armed
  | _, _ => []

/-- What the commands of a burst bring about, each in the state in which it is carried out. -/
def alongBurst {α : Type} (look : Scheduler K → SchedulerCommand K → List α) :
    Scheduler K → List (SchedulerCommand K) → List α
  | _, [] => []
  | scheduler, command :: later =>
      look scheduler command ++ alongBurst look (scheduler.perform command).2 later

/-- What the commands of some bursts bring about. -/
def along {α : Type} (look : Scheduler K → SchedulerCommand K → List α) :
    Scheduler K → List (List (SchedulerCommand K)) → List α
  | _, [] => []
  | scheduler, burst :: later =>
      alongBurst look scheduler burst ++ along look (scheduler.burst burst) later

/-- What is granted in the course of some bursts, in order. -/
def grants (scheduler : Scheduler K) (bursts : List (List (SchedulerCommand K))) :
    List (Candidate K) := along granted scheduler bursts

/-- What is withdrawn in the course of some bursts, in order. -/
def withdrawals (scheduler : Scheduler K) (bursts : List (List (SchedulerCommand K))) :
    List (Arming K) := along withdrawn scheduler bursts

variable {scheduler : Scheduler K}

/-- A request is met when the scheduler is open, and the entry owned and free; otherwise at most a
counter changes. -/
theorem schedule_eq (scheduler : Scheduler K) (id : K) (deadline : Instant) :
    ∃ metrics, scheduler.schedule id deadline =
      (scheduler.admits id,
        if scheduler.admits id then scheduler.arm id deadline
        else { scheduler with metrics := metrics }) := by
  rcases schedule_cases scheduler id deadline with ⟨hopen, howns, hfree, h⟩ | ⟨hwhy, metrics, h⟩
  · exact ⟨scheduler.metrics, by simp [h, admits, hopen, howns, hfree]⟩
  · refine ⟨metrics, ?_⟩
    have hnot : scheduler.admits id = false := by
      rcases hwhy with hclosed | hforeign | hcontains
      · simp [admits, hclosed]
      · simp [admits, hforeign]
      · simp [admits, hcontains]
    rw [h, hnot]
    rfl

/-- A candidate that was gained is taken exactly when a request for it would be met. -/
theorem takes_iff_admits {gained : SegmentLocality K} {candidate : Candidate K}
    (hgained : gained.owns candidate.id = true) :
    scheduler.Takes gained candidate ↔ scheduler.admits candidate.id = true := by
  constructor
  · rintro ⟨hopen, -, howns, hfree⟩
    simp [admits, hopen, howns, hfree]
  · intro hadmits
    simp only [admits, Bool.and_eq_true, Bool.not_eq_true'] at hadmits
    obtain ⟨⟨hopen, howns⟩, hfree⟩ := hadmits
    exact ⟨hopen, hgained, howns, hfree⟩

theorem granted_schedule (scheduler : Scheduler K) (id : K) (deadline : Instant) :
    scheduler.granted (.schedule id deadline) =
      if scheduler.admits id then [⟨id, deadline⟩] else [] := by
  obtain ⟨metrics, h⟩ := schedule_eq scheduler id deadline
  simp only [granted, perform, h]
  cases scheduler.admits id <;> rfl

theorem granted_scheduleAfter (scheduler : Scheduler K) (id : K) (delay : Nat) :
    scheduler.granted (.scheduleAfter id delay) =
      if scheduler.admits id then [⟨id, scheduler.now + delay⟩] else [] := by
  obtain ⟨metrics, h⟩ := schedule_eq scheduler id (scheduler.now + delay)
  simp only [granted, perform, scheduleAfter, h]
  cases scheduler.admits id <;> rfl

namespace Turnover

/-- A request that is met turns over its entry, and any other nothing. -/
theorem schedule (scheduler : Scheduler K) (id : K) (deadline : Instant) :
    Turnover (if scheduler.admits id then [⟨id, deadline⟩] else []) [] scheduler
      (scheduler.schedule id deadline).2 := by
  obtain ⟨metrics, h⟩ := schedule_eq scheduler id deadline
  rw [h]
  cases scheduler.admits id with
  | true => exact arm scheduler id deadline
  | false => exact of_same rfl rfl

/-- Requests for candidates that were gained turn over those that are taken. -/
theorem scheduleAll {gained : SegmentLocality K} (candidates : List (Candidate K))
    (hgained : ∀ candidate ∈ candidates, gained.owns candidate.id = true)
    (scheduler : Scheduler K) :
    Turnover (scheduler.takings gained candidates) [] scheduler
      (scheduler.scheduleAll candidates) := by
  induction candidates generalizing scheduler with
  | nil => exact of_same rfl rfl
  | cons candidate rest ih =>
      obtain ⟨hfirst, hrest⟩ := List.forall_mem_cons.mp hgained
      obtain ⟨metrics, h⟩ := schedule_eq scheduler candidate.id candidate.deadline
      rw [scheduleAll_cons, h]
      by_cases hadmits : scheduler.admits candidate.id = true
      · have htakes := (takes_iff_admits hfirst).mpr hadmits
        rw [takings_cons_of_takes htakes, if_pos hadmits]
        exact (arm scheduler candidate.id candidate.deadline).trans (ih hrest _)
      · -- The counter of a request that is not met may have changed, so what follows is taken from
        -- another scheduler, and the same as from this one.
        have hleft := mt (takes_iff_admits hfirst).mp hadmits
        have halike : Alike { scheduler with metrics := metrics } scheduler := ⟨rfl, rfl, rfl⟩
        have hthen := ih hrest { scheduler with metrics := metrics }
        have hsame : Turnover [] [] scheduler { scheduler with metrics := metrics } :=
          of_same rfl rfl
        rw [halike.takings_eq] at hthen
        rw [takings_cons_of_not_takes hleft, if_neg hadmits]
        exact hsame.trans hthen

/-- Every command turns over what it is granted and what it withdraws. -/
theorem perform (scheduler : Scheduler K) (command : SchedulerCommand K) :
    Turnover (scheduler.granted command) (scheduler.withdrawn command) scheduler
      (scheduler.perform command).2 := by
  cases command with
  | schedule id deadline =>
      rw [granted_schedule]
      exact schedule scheduler id deadline
  | scheduleAfter id delay =>
      rw [granted_scheduleAfter]
      exact schedule scheduler id (scheduler.now + delay)
  | cancel id =>
      rcases cancel_cases scheduler id with ⟨-, h⟩ | ⟨-, h⟩
      · simp only [granted, withdrawn, Scheduler.perform, h]
        exact disarm scheduler _
      · simp only [granted, withdrawn, Scheduler.perform, h]
        exact of_same rfl rfl
  | install topology locality =>
      obtain ⟨gate, h⟩ := install_eq scheduler topology locality
      simp only [granted, withdrawn, Scheduler.perform, h]
      exact of_same rfl rfl
  | cancelUnowned topology locality =>
      simp only [granted, withdrawn, Scheduler.perform, cancelUnowned_eq]
      split
      · have hinstalled : Turnover [] [] scheduler
            { scheduler with gate := ⟨some topology, locality⟩ } := of_same rfl rfl
        exact hinstalled.trans
          (disarm { scheduler with gate := ⟨some topology, locality⟩ } fun arming =>
            !locality.owns arming.id)
      · exact of_same rfl rfl
  | reconcile old new script =>
      rw [perform_reconcile]
      exact scheduleAll _ (script.offers_gained _) scheduler
  | advance elapsed => exact of_same rfl rfl
  | shutdown =>
      have hclosed : Turnover [] [] scheduler { scheduler with closed := true } := of_same rfl rfl
      have hall := hclosed.trans (disarm _ fun _ => true)
      rwa [List.filter_true] at hall
  | drop =>
      have hall := disarm scheduler fun _ => true
      rwa [List.filter_true] at hall

/-- Coming to rest turns over nothing. -/
theorem fireDue (haccounted : scheduler.Accounted) : Turnover [] [] scheduler scheduler.fireDue where
  armings := haccounted.armings_fireDue
  generation := by
    obtain ⟨metrics, hrest⟩ := haccounted.fireDue_eq
    rw [hrest]
    rfl
  cancellations := haccounted.cancellations_fireDue

theorem alongBurst (scheduler : Scheduler K) (commands : List (SchedulerCommand K)) :
    Turnover (alongBurst granted scheduler commands) (alongBurst withdrawn scheduler commands)
      scheduler
      (commands.foldl (fun scheduler command => (scheduler.perform command).2) scheduler) := by
  induction commands generalizing scheduler with
  | nil => exact of_same rfl rfl
  | cons command later ih => exact (perform scheduler command).trans (ih _)

/-- Bursts turn over what is granted and withdrawn in their course. -/
theorem runBursts (haccounted : scheduler.Accounted) (bursts : List (List (SchedulerCommand K))) :
    Turnover (scheduler.grants bursts) (scheduler.withdrawals bursts) scheduler
      (scheduler.runBursts bursts) := by
  induction bursts generalizing scheduler with
  | nil => exact of_same rfl rfl
  | cons burst later ih =>
      have hcommands := (changes_foldl_perform burst scheduler).accounted haccounted
      have hburst := (alongBurst scheduler burst).trans (fireDue hcommands)
      rw [List.append_nil, List.append_nil] at hburst
      exact hburst.trans (ih (haccounted.burst burst))

end Turnover

/-- What a scheduler answers in any state. -/
structure Answers (scheduler : Scheduler K) : Prop where
  /-- A request is answered with yes exactly when the scheduler is open, and the entry owned and
  free. -/
  schedule : ∀ id deadline,
    (scheduler.perform (.schedule id deadline)).1 = .verdict (scheduler.admits id)
  scheduleAfter : ∀ id delay,
    (scheduler.perform (.scheduleAfter id delay)).1 = .verdict (scheduler.admits id)
  /-- A cancellation is answered with yes exactly when the entry is armed. -/
  cancel : ∀ id, (scheduler.perform (.cancel id)).1 = .verdict (scheduler.contains id)
  /-- Whoever takes back many armings is told how many they were. -/
  cancelUnowned : ∀ topology locality, (scheduler.perform (.cancelUnowned topology locality)).1 =
    .disarmed (scheduler.withdrawn (.cancelUnowned topology locality)).length
  shutdown : (scheduler.perform .shutdown).1 = .disarmed (scheduler.withdrawn .shutdown).length
  /-- A pass that reports has armed as many entries as it says. -/
  reconcile : ∀ old new script report asked,
    (scheduler.perform (.reconcile old new script)).1 = .pass (.ok report) asked →
      report.armed = UInt64.ofNat (scheduler.granted (.reconcile old new script)).length

/-- What was not gained is not taken anyway. -/
theorem takings_offered (scheduler : Scheduler K) (gained : SegmentLocality K)
    (items : List (Item K)) (untilCancelled : Option Nat) :
    scheduler.takings gained (offered gained items untilCancelled) =
      scheduler.takings gained (reached items untilCancelled) := by
  rw [takings, takings, offered, List.filter_filter]
  congr 1
  refine List.filter_congr fun candidate _ => ?_
  rw [Bool.and_eq_left_iff_imp, decide_eq_true_eq]
  exact Takes.gained

/-- A pass counts what it takes. -/
theorem armed_of_reconcile {old new : SegmentLocality K} {script : ItemScript K} {report : Report}
    (hreported : (scheduler.reconcile old new script.answer
      (script.untilCancelled (new.gainedSince old))).1 = .ok report) :
    report.armed = UInt64.ofNat
      (scheduler.takings (new.gainedSince old) (script.offers (new.gainedSince old))).length := by
  unfold Scheduler.reconcile at hreported
  unfold ItemScript.offers
  dsimp only at hreported
  by_cases hnone : (new.gainedSince old).segments.isEmpty = true
  · -- The source is not asked, and of what it would answer nothing was gained.
    rw [if_pos hnone] at hreported
    rw [← Except.ok.inj hreported]
    cases script.answer (new.gainedSince old) with
    | ok items =>
        dsimp only
        rw [offered_of_isEmpty hnone]
        rfl
    | error failure => rfl
  · rw [if_neg hnone] at hreported
    cases hanswer : script.answer (new.gainedSince old) with
    | error failure =>
        rw [hanswer] at hreported
        cases hreported
    | ok items =>
        rw [hanswer] at hreported
        dsimp only at hreported ⊢
        obtain ⟨rest, result, after, hplaced, -, -, ⟨added, harmed, -, hadded⟩, hends, -⟩ :=
          scheduler.placeAll_arms_takings (new.gainedSince old) items
            (script.untilCancelled (new.gainedSince old))
        rw [hplaced] at hreported
        obtain rfl : result = .ok report := hreported
        have hgrowth : after.size - scheduler.size = added.length := by
          rw [size, size, harmed, List.length_append, Nat.add_sub_cancel_left]
        rw [hends.of_ok.1, takings_offered, ← hadded, List.length_map, ← hgrowth]
        rfl

theorem answers (scheduler : Scheduler K) : scheduler.Answers where
  schedule id deadline := by
    obtain ⟨metrics, h⟩ := schedule_eq scheduler id deadline
    simp only [perform, h]
  scheduleAfter id delay := by
    obtain ⟨metrics, h⟩ := schedule_eq scheduler id (scheduler.now + delay)
    simp only [perform, scheduleAfter, h]
  cancel id := by
    rcases cancel_cases scheduler id with ⟨hcontains, h⟩ | ⟨hfree, h⟩
    · simp only [perform, h, hcontains]
    · simp only [perform, h, hfree]
  cancelUnowned topology locality := by
    simp only [withdrawn, perform, cancelUnowned_eq]
    cases scheduler.accepts topology <;> rfl
  shutdown := by
    simp [withdrawn, perform, Scheduler.shutdown, disarm]
  reconcile old new script report asked hreply := by
    simp only [perform, SchedulerReply.pass.injEq] at hreply
    exact armed_of_reconcile hreply.1

/-- What is true of the armings of a scheduler that began anew, at rest after some bursts. -/
structure EndsOnce (now : Instant) (bursts : List (List (SchedulerCommand K)))
    (scheduler : Scheduler K) : Prop where
  /-- In every state answers tell what is granted and what is withdrawn. -/
  answers : ∀ earlier : Scheduler K, earlier.Answers
  /-- What was armed is what was granted, with the deadlines given, numbered in order. -/
  granted : scheduler.armings.reverse = numberFrom 1 ((new now).grants bursts)
  /-- What was cancelled is what was withdrawn. -/
  withdrawn : scheduler.cancellations.reverse = (new now).withdrawals bursts
  /-- Each arming has fired, was cancelled, or is still there. -/
  ends : scheduler.armings.Perm
    (scheduler.fires.map (·.1) ++ (scheduler.cancellations ++ scheduler.armed))
  distinct : scheduler.armings.Nodup
  /-- An entry was granted as often as it has fired, was withdrawn and is armed. -/
  count : ∀ id, (((new now).grants bursts).map (·.id)).count id =
    scheduler.fireCount id + (((new now).withdrawals bursts).map (·.id)).count id +
      if scheduler.contains id then 1 else 0
  /-- An arming that has fired was not withdrawn, and fired at the first rest at which its deadline
  was reached. -/
  fires : ∀ arming instant, (arming, instant) ∈ scheduler.fires →
    arming ∉ (new now).withdrawals bursts ∧
      ∃ before burst after, bursts = before ++ burst :: after ∧
        FiresAfter now before burst arming instant
  /-- No deadline of what is armed has been reached. -/
  pending : ∀ arming ∈ scheduler.armed, scheduler.now < arming.deadline
  /-- Each armed entry has a timer of its own, which runs to its deadline, and there are no others. -/
  timed : scheduler.Timed
  /-- After the end of the scheduler nothing is armed, and nothing fires that had not fired before. -/
  ceased : ∀ before first ending second after,
    bursts = before ++ (first ++ ending :: second) :: after →
    ending = .shutdown ∨ ending = .drop ∧ OnlyAdvances (second ++ after.flatten) →
      scheduler.armed = [] ∧ scheduler.fires = ((new now).runBursts before).fires

/-- Whatever is asked of a scheduler, at every rest what it was granted has ended once or is still
pending. -/
theorem runBursts_ends (now : Instant) (bursts : List (List (SchedulerCommand K))) :
    EndsOnce now bursts ((new now).runBursts bursts) := by
  have hnew : (new now : Scheduler K).Accounted := accounted_new now
  have haccounted := hnew.runBursts bursts
  have hturnover := Turnover.runBursts hnew bursts
  have hgranted : ((new now).runBursts bursts).armings.reverse =
      numberFrom 1 ((new now).grants bursts) := by
    rw [hturnover.armings, List.reverse_append, List.reverse_reverse]
    rfl
  have hwithdrawn : ((new now).runBursts bursts).cancellations.reverse =
      (new now).withdrawals bursts := by
    rw [hturnover.cancellations, List.reverse_append, List.reverse_reverse]
    rfl
  constructor
  case answers => exact Scheduler.answers
  case granted => exact hgranted
  case withdrawn => exact hwithdrawn
  case ends => exact haccounted.ends
  case distinct => exact haccounted.numbered.of_map
  case count =>
    intro id
    have harm : ((new now).runBursts bursts).armCount id =
        (((new now).grants bursts).map (·.id)).count id := by
      rw [armCount, ← List.count_reverse, ← List.map_reverse, hgranted, map_id_numberFrom]
    have hcancel : ((new now).runBursts bursts).cancelCount id =
        (((new now).withdrawals bursts).map (·.id)).count id := by
      rw [cancelCount, ← List.count_reverse, ← List.map_reverse, hwithdrawn]
    rw [← harm, ← hcancel]
    exact haccounted.armCount_eq id
  case fires =>
    intro arming instant hfired
    refine ⟨fun hmem => (haccounted.fired_apart hfired).1 ?_, firesAfter_of_mem_fires now bursts hfired⟩
    rw [← hwithdrawn] at hmem
    exact List.mem_reverse.mp hmem
  case pending => exact fun arming hmem => pending_runBursts now bursts hmem
  case timed => exact timed_runBursts now bursts
  case ceased =>
    rintro before first ending second after rfl hending
    exact runBursts_of_ending now before after first second hending

/-- An entry that is cancelled and armed anew fires by its second deadline only. -/
example :
    let bursts : List (List (SchedulerCommand Nat)) :=
      [[.schedule 7 10, .cancel 7, .scheduleAfter 7 25], [.advance 10], [.advance 20]]
    (new 0).grants bursts = [⟨7, 10⟩, ⟨7, 25⟩] ∧
      (new 0).withdrawals bursts = [⟨7, 10, 1⟩] ∧
      ((new 0).runBursts bursts).fires = [(⟨7, 25, 2⟩, 30)] := by
  decide

end Scheduler

end Custody
