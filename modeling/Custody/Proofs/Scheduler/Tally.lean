/-
# The tally of armings

A scheduler counts every arming, every ending of an arming, and every request that it turns down, and
keeps a level of what is armed.  The counters follow the journal change by change, whichever way an
arming ends: cancelled by itself, taken back in bulk, fired, or taken back when the scheduler shuts
down or is no more.  Since the journal accounts for what is armed, the level and the counters agree
with it at every rest.

Every request to arm an entry is either turned down and counted or leads to an arming, unless the
scheduler is shut down: then nobody counts.  The requests of a scheduling pass are those candidates
in gained segments that it gets to before it fails or is cancelled.

Counters and levels wrap around at 64 bits, and what is said of them holds in that arithmetic.
-/

import Custody.Proofs.Scheduler.Endings
import Custody.Proofs.Scheduler.Placement

namespace Custody

namespace EntryMetrics

/-- The level is what was armed and has not ended. -/
def Levelled (metrics : EntryMetrics) : Prop :=
  metrics.armedNow.toUInt64 + metrics.cancelled + metrics.fired = metrics.armed

/-- The requests that led to an arming or were turned down. -/
def answered (metrics : EntryMetrics) : UInt64 :=
  metrics.armed + metrics.notOwned + metrics.duplicate

variable {metrics : EntryMetrics}

theorem Levelled.recordArmed (hlevelled : metrics.Levelled) : metrics.recordArmed.Levelled := by
  have hone : (1 : Int64).toUInt64 = 1 := rfl
  simp only [Levelled, EntryMetrics.recordArmed, Int64.toUInt64_add, hone] at hlevelled ⊢
  rw [← hlevelled]
  ac_rfl

theorem Levelled.recordCancelled (hlevelled : metrics.Levelled) (count : UInt64) :
    (metrics.recordCancelled count).Levelled := by
  simp only [Levelled, EntryMetrics.recordCancelled, Int64.toUInt64_sub,
    UInt64.toUInt64_toInt64] at hlevelled ⊢
  grind

theorem Levelled.recordFired (hlevelled : metrics.Levelled) : metrics.recordFired.Levelled := by
  have hone : (1 : Int64).toUInt64 = 1 := rfl
  simp only [Levelled, EntryMetrics.recordFired, Int64.toUInt64_sub, hone] at hlevelled ⊢
  grind

theorem answered_recordArmed : metrics.recordArmed.answered = metrics.answered + 1 := by
  simp only [answered, recordArmed]
  ac_rfl

theorem answered_recordNotOwned : metrics.recordNotOwned.answered = metrics.answered + 1 := by
  simp only [answered, recordNotOwned]
  ac_rfl

theorem answered_recordDuplicate : metrics.recordDuplicate.answered = metrics.answered + 1 := by
  simp only [answered, recordDuplicate]
  ac_rfl

end EntryMetrics

/-- The candidates that a pass gets to, when it is cancelled after some items or not at all: those
before the first failure among the items that it sees. -/
def reached {K : Type} (items : List (Item K)) (untilCancelled : Option Nat) :
    List (Candidate K) :=
  ((items.take (untilCancelled.getD items.length)).takeWhile (·.isOk)).filterMap (·.toOption)

/-- The candidates that a pass offers to the scheduler. -/
def offered {K : Type} (gained : SegmentLocality K) (items : List (Item K))
    (untilCancelled : Option Nat) : List (Candidate K) :=
  (reached items untilCancelled).filter fun candidate => gained.owns candidate.id

/-- The candidates that a pass over a script offers; none when the source refuses to list them. -/
def ItemScript.offers {K : Type} (script : ItemScript K) (gained : SegmentLocality K) :
    List (Candidate K) :=
  match script.answer gained with
  | .ok items => offered gained items (script.untilCancelled gained)
  | .error _ => []

namespace SchedulerCommand

variable {K : Type}

/-- The number of times that a command asks for an entry to be armed. -/
def requests : SchedulerCommand K → Nat
  | schedule _ _ | scheduleAfter _ _ => 1
  | reconcile old new script => (script.offers (new.gainedSince old)).length
  | cancel _ | install _ _ | cancelUnowned _ _ | advance _ | shutdown | drop => 0

/-- Whether a command shuts the scheduler down. -/
def isShutdown : SchedulerCommand K → Bool
  | shutdown => true
  | _ => false

end SchedulerCommand

/-- The number of times that commands ask for an entry to be armed while the scheduler is not shut
down. -/
def heardRequests {K : Type} : List (SchedulerCommand K) → Nat
  | [] => 0
  | command :: later =>
      if command.isShutdown then 0 else command.requests + heardRequests later

section Reached

variable {K : Type}

@[simp] theorem reached_nil (untilCancelled : Option Nat) :
    reached ([] : List (Item K)) untilCancelled = [] := by
  simp [reached]

/-- A pass that was cancelled gets to nothing more. -/
@[simp] theorem reached_cancelled (items : List (Item K)) : reached items (some 0) = [] := by
  simp [reached]

/-- A pass does not get past a failure. -/
@[simp] theorem reached_error (failure : Error) (rest : List (Item K))
    (untilCancelled : Option Nat) : reached (.error failure :: rest) untilCancelled = [] := by
  rcases untilCancelled with _ | _ | remaining <;> simp [reached, Except.isOk, Except.toBool]

/-- A candidate that is seen is got to, and the pass goes on from there. -/
theorem reached_ok (candidate : Candidate K) (rest : List (Item K)) {untilCancelled : Option Nat}
    (hgoes : untilCancelled ≠ some 0) :
    reached (.ok candidate :: rest) untilCancelled =
      candidate :: reached rest (untilCancelled.map (· - 1)) := by
  rcases untilCancelled with _ | _ | remaining
  · simp [reached, Except.isOk, Except.toBool, Except.toOption]
  · exact absurd rfl hgoes
  · simp [reached, Except.isOk, Except.toBool, Except.toOption]

/-- Where nothing was gained, nothing is offered. -/
theorem offered_of_isEmpty {gained : SegmentLocality K} (hnone : gained.segments.isEmpty = true)
    (items : List (Item K)) (untilCancelled : Option Nat) :
    offered gained items untilCancelled = [] := by
  refine List.filter_eq_nil_iff.mpr fun candidate _ howns => ?_
  rw [SegmentLocality.owns, SegmentLocality.ownsSegment,
    SegmentSet.not_contains_of_isEmpty hnone] at howns
  cases howns

/-- What a pass offers was gained. -/
theorem ItemScript.offers_gained (script : ItemScript K) (gained : SegmentLocality K) :
    ∀ candidate ∈ script.offers gained, gained.owns candidate.id = true := by
  intro candidate hmem
  unfold ItemScript.offers at hmem
  split at hmem
  · exact (List.mem_filter.mp hmem).2
  · nomatch hmem

end Reached

namespace Scheduler

variable {K : Type}

/-- A scheduler whose counters and level agree with its journal, and with the number of requests that
it has heard. -/
structure Counted (scheduler : Scheduler K) (heard : Nat) : Prop where
  armed : scheduler.metrics.armed = UInt64.ofNat scheduler.armings.length
  cancelled : scheduler.metrics.cancelled = UInt64.ofNat scheduler.cancellations.length
  fired : scheduler.metrics.fired = UInt64.ofNat scheduler.fires.length
  levelled : scheduler.metrics.Levelled
  answered : scheduler.metrics.answered = UInt64.ofNat heard

/-- A new scheduler has counted nothing. -/
theorem counted_new (now : Instant) : (new now : Scheduler K).Counted 0 :=
  ⟨rfl, rfl, rfl, rfl, rfl⟩

/-- Ask for some entries to be armed, one after the other. -/
def scheduleAll [DecidableEq K] (scheduler : Scheduler K) (candidates : List (Candidate K)) :
    Scheduler K :=
  candidates.foldl
    (fun scheduler candidate => (scheduler.schedule candidate.id candidate.deadline).2) scheduler

@[simp] theorem scheduleAll_cons [DecidableEq K] (scheduler : Scheduler K)
    (candidate : Candidate K) (candidates : List (Candidate K)) :
    scheduler.scheduleAll (candidate :: candidates) =
      (scheduler.schedule candidate.id candidate.deadline).2.scheduleAll candidates := rfl

namespace Counted

variable {scheduler : Scheduler K} {heard : Nat}

/-- Counters are kept where neither they nor the journal change. -/
theorem of_same {after : Scheduler K} (hcounted : scheduler.Counted heard)
    (hmetrics : after.metrics = scheduler.metrics) (hjournal : after.journal = scheduler.journal) :
    after.Counted heard := by
  obtain ⟨harmed, hcancelled, hfired, hlevelled, hanswered⟩ := hcounted
  rw [armings, ← hjournal] at harmed
  rw [cancellations, ← hjournal] at hcancelled
  rw [fires, ← hjournal] at hfired
  rw [← hmetrics] at harmed hcancelled hfired hlevelled hanswered
  exact ⟨harmed, hcancelled, hfired, hlevelled, hanswered⟩

/-- Armings that are taken back are counted, however many they are. -/
theorem disarm (hcounted : scheduler.Counted heard) (leaves : Arming K → Bool) :
    (scheduler.disarm leaves).2.Counted heard := by
  obtain ⟨harmed, hcancelled, hfired, hlevelled, hanswered⟩ := hcounted
  refine ⟨?_, ?_, ?_, hlevelled.recordCancelled _, hanswered⟩
  · rw [armings_disarm]
    exact harmed
  · rw [cancellations_disarm, List.length_append, List.length_reverse, Nat.add_comm,
      UInt64.ofNat_add, ← hcancelled]
    rfl
  · rw [fires_disarm]
    exact hfired

variable [DecidableEq K]

/-- A request to a scheduler that is not shut down is counted once, as what became of it. -/
theorem schedule (hcounted : scheduler.Counted heard) (id : K) (deadline : Instant) :
    (scheduler.schedule id deadline).2.Counted (heard + if scheduler.closed then 0 else 1) := by
  obtain ⟨harmed, hcancelled, hfired, hlevelled, hanswered⟩ := hcounted
  have hnext : scheduler.metrics.answered + 1 = UInt64.ofNat (heard + 1) := by
    rw [hanswered, UInt64.ofNat_add]
    rfl
  unfold Scheduler.schedule
  split
  · exact ⟨harmed, hcancelled, hfired, hlevelled, hanswered⟩
  · split
    · exact ⟨harmed, hcancelled, hfired, hlevelled,
        EntryMetrics.answered_recordNotOwned.trans hnext⟩
    · split
      · exact ⟨harmed, hcancelled, hfired, hlevelled,
          EntryMetrics.answered_recordDuplicate.trans hnext⟩
      · refine ⟨?_, hcancelled, hfired, hlevelled.recordArmed,
          EntryMetrics.answered_recordArmed.trans hnext⟩
        have hlength : (scheduler.arm id deadline).armings.length = scheduler.armings.length + 1 :=
          rfl
        rw [hlength, UInt64.ofNat_add, ← harmed]
        rfl

/-- Requests one after the other are counted, unless the scheduler is shut down. -/
theorem scheduleAll (candidates : List (Candidate K)) {scheduler : Scheduler K} {heard : Nat}
    (hcounted : scheduler.Counted heard) :
    (scheduler.scheduleAll candidates).Counted
      (heard + if scheduler.closed then 0 else candidates.length) := by
  induction candidates generalizing scheduler heard with
  | nil => simpa [Scheduler.scheduleAll] using hcounted
  | cons candidate candidates ih =>
      have hnext := ih (hcounted.schedule candidate.id candidate.deadline)
      rw [closed_schedule] at hnext
      rw [scheduleAll_cons]
      convert hnext using 1
      cases scheduler.closed
      · simp only [Bool.false_eq_true, if_false, List.length_cons]
        omega
      · simp only [if_true, Nat.add_zero]

/-- An arming that fires is counted. -/
theorem fire (hcounted : scheduler.Counted heard) (timer : Timer K) :
    (scheduler.fire timer).Counted heard := by
  obtain ⟨-, hfire⟩ | ⟨-, hfire⟩ := fire_cases scheduler timer
  · obtain ⟨harmed, hcancelled, hfired, hlevelled, hanswered⟩ := hcounted
    rw [hfire]
    refine ⟨harmed, hcancelled, ?_, hlevelled.recordFired, hanswered⟩
    rw [fires, List.filterMap_cons, List.length_cons, UInt64.ofNat_add, ← fires, ← hfired]
    rfl
  · rw [hfire]
    exact hcounted

/-- Coming to rest counts what fires. -/
theorem fireDue (hcounted : scheduler.Counted heard) : scheduler.fireDue.Counted heard := by
  have hfold : ∀ (timers : List (Timer K)) {start : Scheduler K}, start.Counted heard →
      (timers.foldl Scheduler.fire start).Counted heard := by
    intro timers
    induction timers with
    | nil => exact fun hstart => hstart
    | cons timer timers ih => exact fun hstart => ih (hstart.fire timer)
  exact (hfold _ hcounted).of_same rfl rfl

end Counted

variable [DecidableEq K]

/-- What a pass does to the scheduler is to ask for one entry after the other to be armed. -/
theorem placeAll_eq_scheduleAll (gained : SegmentLocality K) (items : List (Item K))
    (scheduler : Scheduler K) (untilCancelled : Option Nat) (report : Report) :
    (scheduler.placeAll gained items untilCancelled report).2 =
      scheduler.scheduleAll (offered gained items untilCancelled) := by
  induction items generalizing scheduler untilCancelled report with
  | nil => simp [placeAll, offered, scheduleAll]
  | cons item rest ih =>
      unfold placeAll
      split
      · next hcancelled => simp [hcancelled, offered, scheduleAll]
      · next hgoes =>
          cases item with
          | error failure => simp [offered, scheduleAll]
          | ok candidate =>
              rw [offered, reached_ok candidate rest hgoes]
              dsimp only
              rw [ih, offered]
              rcases place_cases scheduler gained candidate report with ⟨howns, h⟩ | ⟨howns, h⟩
              · rw [h, List.filter_cons_of_neg (by simp [howns])]
              · rw [h, List.filter_cons_of_pos (by simp [howns]), scheduleAll_cons]

/-- A scripted pass asks for what it offers. -/
theorem perform_reconcile (scheduler : Scheduler K) (old new : SegmentLocality K)
    (script : ItemScript K) :
    (scheduler.perform (.reconcile old new script)).2 =
      scheduler.scheduleAll (script.offers (new.gainedSince old)) := by
  simp only [perform, reconcile, ItemScript.offers]
  split
  · next hnone =>
      cases script.answer (new.gainedSince old) with
      | ok items => simp [offered_of_isEmpty hnone, scheduleAll]
      | error failure => rfl
  · cases script.answer (new.gainedSince old) with
    | ok items => exact placeAll_eq_scheduleAll _ items scheduler _ _
    | error failure => rfl

theorem closed_scheduleAll (scheduler : Scheduler K) (candidates : List (Candidate K)) :
    (scheduler.scheduleAll candidates).closed = scheduler.closed := by
  induction candidates generalizing scheduler with
  | nil => rfl
  | cons candidate candidates ih => exact (ih _).trans (closed_schedule scheduler _ _)

/-- A scheduler is shut down by the command to do so and by nothing else. -/
theorem closed_perform (scheduler : Scheduler K) (command : SchedulerCommand K) :
    (scheduler.perform command).2.closed = (scheduler.closed || command.isShutdown) := by
  cases command with
  | shutdown => exact (Bool.or_true _).symm
  | schedule id deadline =>
      exact (closed_schedule scheduler id deadline).trans (Bool.or_false _).symm
  | scheduleAfter id delay => exact (closed_schedule scheduler id _).trans (Bool.or_false _).symm
  | cancel id =>
      rcases cancel_cases scheduler id with ⟨-, h⟩ | ⟨-, h⟩ <;>
        simp [perform, h, disarm, SchedulerCommand.isShutdown]
  | install topology locality =>
      obtain ⟨gate, h⟩ := install_eq scheduler topology locality
      simp [perform, h, SchedulerCommand.isShutdown]
  | cancelUnowned topology locality =>
      rcases cancelUnowned_cases scheduler topology locality with ⟨-, -, -, h⟩ | ⟨-, h⟩ <;>
        simp [perform, h, disarm, SchedulerCommand.isShutdown]
  | reconcile old new script =>
      rw [perform_reconcile, closed_scheduleAll]
      exact (Bool.or_false _).symm
  | advance elapsed => exact (Bool.or_false _).symm
  | drop => exact (Bool.or_false _).symm

/-- A command is counted by what it asks for, unless the scheduler is shut down. -/
theorem Counted.perform {scheduler : Scheduler K} {heard : Nat}
    (hcounted : scheduler.Counted heard) (command : SchedulerCommand K) :
    (scheduler.perform command).2.Counted
      (heard + if scheduler.closed then 0 else command.requests) := by
  have hsilent : ∀ {after : Scheduler K}, after.Counted heard →
      after.Counted (heard + if scheduler.closed then 0 else 0) := by
    intro after hafter
    rwa [ite_self, Nat.add_zero]
  cases command with
  | schedule id deadline => exact hcounted.schedule id deadline
  | scheduleAfter id delay => exact hcounted.schedule id _
  | reconcile old new script =>
      rw [perform_reconcile]
      exact hcounted.scheduleAll _
  | cancel id =>
      apply hsilent
      rcases cancel_cases scheduler id with ⟨-, h⟩ | ⟨-, h⟩
      · simp only [Scheduler.perform, h]
        exact hcounted.disarm _
      · simp only [Scheduler.perform, h]
        exact hcounted
  | install topology locality =>
      apply hsilent
      obtain ⟨gate, h⟩ := install_eq scheduler topology locality
      simp only [Scheduler.perform, h]
      exact hcounted.of_same rfl rfl
  | cancelUnowned topology locality =>
      apply hsilent
      rcases cancelUnowned_cases scheduler topology locality with ⟨-, -, -, h⟩ | ⟨-, h⟩
      · simp only [Scheduler.perform, h]
        exact hcounted
      · have hgated : ({ scheduler with gate := ⟨some topology, locality⟩ } :
            Scheduler K).Counted heard := hcounted.of_same rfl rfl
        simp only [Scheduler.perform, h]
        exact hgated.disarm _
  | advance elapsed => exact hsilent (hcounted.of_same rfl rfl)
  | shutdown =>
      have hclosed : ({ scheduler with closed := true } : Scheduler K).Counted heard :=
        hcounted.of_same rfl rfl
      exact hsilent (hclosed.disarm _)
  | drop => exact hsilent (hcounted.disarm _)

/-- The requests among some commands that a scheduler hears. -/
def hears (scheduler : Scheduler K) (commands : List (SchedulerCommand K)) : Nat :=
  if scheduler.closed then 0 else heardRequests commands

/-- What is heard of a command is heard before it is carried out. -/
theorem hears_cons (scheduler : Scheduler K) (command : SchedulerCommand K)
    (commands : List (SchedulerCommand K)) :
    scheduler.hears (command :: commands) =
      (if scheduler.closed then 0 else command.requests) +
        (scheduler.perform command).2.hears commands := by
  rw [hears, hears, closed_perform]
  cases hclosed : scheduler.closed with
  | true => rfl
  | false =>
      cases hlast : command.isShutdown with
      | false => simp [heardRequests, hlast]
      | true =>
          have hrequests : command.requests = 0 := by
            cases command <;> first | rfl | cases hlast
          simp [heardRequests, hlast, hrequests]

/-- A sequence of commands is counted by what is heard of it. -/
theorem Counted.foldl_perform (commands later : List (SchedulerCommand K)) {scheduler : Scheduler K}
    {heard : Nat} (hcounted : scheduler.Counted heard) :
    ∃ now, (commands.foldl (fun scheduler command => (scheduler.perform command).2)
        scheduler).Counted now ∧
      now + (commands.foldl (fun scheduler command => (scheduler.perform command).2)
        scheduler).hears later = heard + scheduler.hears (commands ++ later) := by
  induction commands generalizing scheduler heard with
  | nil => exact ⟨heard, hcounted, rfl⟩
  | cons command commands ih =>
      obtain ⟨now, hnow, hsum⟩ := ih (hcounted.perform command)
      refine ⟨now, hnow, hsum.trans ?_⟩
      rw [List.cons_append, hears_cons, Nat.add_assoc]

/-- At every rest the counters have counted what was heard. -/
theorem Counted.runBursts (bursts : List (List (SchedulerCommand K))) {scheduler : Scheduler K}
    {heard : Nat} (hcounted : scheduler.Counted heard) :
    (scheduler.runBursts bursts).Counted (heard + scheduler.hears bursts.flatten) := by
  induction bursts generalizing scheduler heard with
  | nil =>
      have hnothing : scheduler.hears [] = 0 := ite_self 0
      rw [List.flatten_nil, hnothing]
      exact hcounted
  | cons burst bursts ih =>
      obtain ⟨now, hnow, hsum⟩ := hcounted.foldl_perform burst bursts.flatten
      have hrest := ih hnow.fireDue
      rw [hears, closed_fireDue, ← hears, hsum] at hrest
      exact hrest

omit [DecidableEq K] in
/-- What was armed is what was cancelled, what has fired, and what is still there. -/
theorem Accounted.length_armings {scheduler : Scheduler K} (haccounted : scheduler.Accounted) :
    scheduler.armings.length =
      scheduler.cancellations.length + scheduler.fires.length + scheduler.size := by
  have hlength := haccounted.ends.length_eq
  rw [List.length_append, List.length_append, List.length_map] at hlength
  rw [hlength, size]
  omega

/-- At every rest the level of armed entries is their number, the entries armed are those cancelled,
those fired and those still armed, and every request made before the scheduler was shut down, be it
made directly or by a pass for a candidate in a gained segment, was met or turned down for one of two
reasons. -/
theorem runBursts_tallied (now : Instant) (bursts : List (List (SchedulerCommand K))) :
    ((new now).runBursts bursts).metrics.armedNow =
      Int64.ofNat ((new now).runBursts bursts).size ∧
    ((new now).runBursts bursts).metrics.armed =
      ((new now).runBursts bursts).metrics.cancelled +
        ((new now).runBursts bursts).metrics.fired +
          UInt64.ofNat ((new now).runBursts bursts).size ∧
    UInt64.ofNat (heardRequests bursts.flatten) =
      ((new now).runBursts bursts).metrics.armed +
        ((new now).runBursts bursts).metrics.notOwned +
          ((new now).runBursts bursts).metrics.duplicate := by
  have hcounted := (counted_new now : (new now : Scheduler K).Counted 0).runBursts bursts
  have haccounted := (accounted_new now : (new now : Scheduler K).Accounted).runBursts bursts
  have hheard : 0 + (new now : Scheduler K).hears bursts.flatten =
      heardRequests bursts.flatten := Nat.zero_add _
  rw [hheard] at hcounted
  generalize (new now).runBursts bursts = scheduler at hcounted haccounted
  have hbalance : scheduler.metrics.armed = scheduler.metrics.cancelled +
      scheduler.metrics.fired + UInt64.ofNat scheduler.size := by
    rw [hcounted.armed, hcounted.cancelled, hcounted.fired, haccounted.length_armings,
      UInt64.ofNat_add, UInt64.ofNat_add]
  refine ⟨?_, hbalance, hcounted.answered.symm⟩
  have hlevel : scheduler.metrics.armedNow.toUInt64 = UInt64.ofNat scheduler.size := by
    have hlevelled := hcounted.levelled
    rw [EntryMetrics.Levelled, hbalance] at hlevelled
    grind
  exact congrArg UInt64.toInt64 hlevel

end Scheduler

end Custody
