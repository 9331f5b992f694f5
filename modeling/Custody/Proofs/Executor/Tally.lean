/-
# The tally of passes

Every accepted pass ends in one way, and each way has a counter of its own: passes that ran to their
end, passes that failed, and passes that were overtaken, be it in the queue, with the worker or by
their own report.  What a dismissed worker leaves behind is overtaken and not counted.  So the passes
accepted are those counted, those that wait, and those that were given up with the worker.

Counters wrap around at 64 bits, and the balance holds in that arithmetic.
-/

import Custody.Proofs.Executor.Service

namespace Custody

/-- The ways in which an accepted pass ends. -/
inductive Ending where
  | scheduled | failed | superseded
deriving DecidableEq, Repr

/-- The way in which a pass with a given outcome ended.  The other outcomes belong to reconciliations
for which no pass was accepted. -/
def Outcome.ending : Outcome → Option Ending
  | scheduled _ => some .scheduled
  | failed _ => some .failed
  | superseded => some .superseded
  | noop | cancelled _ | rejected => none

/-- The number of passes that ended in a certain way. -/
def endedAs (way : Ending) (resolved : List (PassId × Outcome)) : Nat :=
  resolved.countP fun entry => entry.2.ending = some way

namespace FailureCounts

theorem foldl_add (entries : List (String × UInt64)) (start more : UInt64) :
    entries.foldl (fun sum entry => sum + entry.2) (start + more) =
      entries.foldl (fun sum entry => sum + entry.2) start + more := by
  induction entries generalizing start with
  | nil => rfl
  | cons entry rest ih =>
      rw [List.foldl_cons, List.foldl_cons, ← ih]
      congr 1
      ac_rfl

theorem foldl_increment (kind : String) (entries : List (String × UInt64)) (start : UInt64) :
    (increment kind entries).foldl (fun sum entry => sum + entry.2) start =
      entries.foldl (fun sum entry => sum + entry.2) start + 1 := by
  induction entries generalizing start with
  | nil => rfl
  | cons entry rest ih =>
      obtain ⟨other, count⟩ := entry
      unfold increment
      split
      · rw [List.foldl_cons, List.foldl_cons, ← UInt64.add_assoc, foldl_add]
      · split
        · rw [List.foldl_cons, foldl_add]
        · rw [List.foldl_cons, List.foldl_cons]
          exact ih _

/-- A failure of any kind is one more failure. -/
theorem total_record (counts : FailureCounts) (kind : String) :
    (counts.record kind).total = counts.total + 1 := foldl_increment kind counts.entries 0

end FailureCounts

/-- The counter of the passes that ended in a certain way. -/
def PassMetrics.counted (metrics : PassMetrics) : Ending → UInt64
  | .scheduled => metrics.completed.count
  | .failed => metrics.failed
  | .superseded => metrics.superseded

/-- Of the passes that ended in a certain way, those that nobody counted. -/
def uncounted (dismissed : Nat) : Ending → Nat
  | .superseded => dismissed
  | .scheduled | .failed => 0

/-- The counters agree with the outcomes, the number of passes accepted and the number of those that
were given up with the worker. -/
structure PassMetrics.Tallies (metrics : PassMetrics) (resolved : List (PassId × Outcome))
    (admitted dismissed : Nat) : Prop where
  submitted : metrics.submitted = UInt64.ofNat admitted
  counted : ∀ way, metrics.counted way + UInt64.ofNat (uncounted dismissed way) =
    UInt64.ofNat (endedAs way resolved)
  failures : metrics.failures.total = metrics.failed
  /-- There are no other ways to end. -/
  ways : resolved.length =
    endedAs .scheduled resolved + endedAs .failed resolved + endedAs .superseded resolved

namespace PassMetrics.Tallies

variable {metrics after : PassMetrics} {resolved : List (PassId × Outcome)} {admitted dismissed : Nat}

theorem endedAs_append (way : Ending) (resolved more : List (PassId × Outcome)) :
    endedAs way (resolved ++ more) = endedAs way resolved + endedAs way more :=
  List.countP_append

theorem endedAs_singleton {id : PassId} {outcome : Outcome} {way : Ending}
    (hway : outcome.ending = some way) (other : Ending) :
    endedAs other [(id, outcome)] = if other = way then 1 else 0 := by
  simp [endedAs, List.countP_singleton, hway, eq_comm]

theorem empty : Tallies {} [] 0 0 where
  submitted := rfl
  counted way := by cases way <;> rfl
  failures := rfl
  ways := rfl

theorem recordSubmitted (htallies : metrics.Tallies resolved admitted dismissed) :
    metrics.recordSubmitted.Tallies resolved (admitted + 1) dismissed where
  submitted := by
    rw [UInt64.ofNat_add, ← htallies.submitted]
    rfl
  counted way := by
    rw [← htallies.counted way]
    cases way <;> rfl
  failures := htallies.failures
  ways := htallies.ways

/-- The level of abandoned passes is no matter of counting. -/
theorem moveAbandoned (htallies : metrics.Tallies resolved admitted dismissed) (change : Int64) :
    (metrics.moveAbandoned change).Tallies resolved admitted dismissed where
  submitted := htallies.submitted
  counted way := by
    rw [← htallies.counted way]
    cases way <;> rfl
  failures := htallies.failures
  ways := htallies.ways

/-- A pass ends in some way, and is counted that way. -/
theorem of_ending (htallies : metrics.Tallies resolved admitted dismissed) (id : PassId)
    {outcome : Outcome} {way : Ending} (hway : outcome.ending = some way)
    (hsubmitted : after.submitted = metrics.submitted)
    (hcounted : ∀ other, after.counted other =
      metrics.counted other + UInt64.ofNat (if other = way then 1 else 0))
    (hfailures : after.failures.total = after.failed) :
    after.Tallies (resolved ++ [(id, outcome)]) admitted dismissed where
  submitted := hsubmitted.trans htallies.submitted
  counted other := by
    rw [endedAs_append, endedAs_singleton hway, UInt64.ofNat_add, ← htallies.counted other,
      hcounted other]
    ac_rfl
  failures := hfailures
  ways := by
    have hbefore := htallies.ways
    simp only [endedAs_append, endedAs_singleton hway, List.length_append, List.length_singleton,
      hbefore]
    cases way <;> simp <;> omega

theorem recordSuperseded (htallies : metrics.Tallies resolved admitted dismissed) (id : PassId) :
    metrics.recordSuperseded.Tallies (resolved ++ [(id, .superseded)]) admitted dismissed := by
  refine htallies.of_ending id rfl rfl (fun other => ?_) htallies.failures
  cases other <;> simp [PassMetrics.counted, PassMetrics.recordSuperseded]

/-- A pass whose work returns is counted by what its work returned. -/
theorem recordResult (htallies : metrics.Tallies resolved admitted dismissed) (id : PassId)
    (result : Except Error Report) :
    (metrics.recordResult result).Tallies (resolved ++ [(id, .ofResult result)]) admitted
      dismissed := by
  cases result with
  | error failure =>
      refine htallies.of_ending id rfl rfl (fun other => ?_) ?_
      · cases other <;>
          simp [PassMetrics.counted, PassMetrics.recordResult, PassMetrics.recordFailure,
            PassMetrics.recordEnd]
      · exact (FailureCounts.total_record ..).trans (congrArg (· + 1) htallies.failures)
  | ok report =>
      cases hinterrupted : report.interrupted with
      | true =>
          simp only [PassMetrics.recordResult, Outcome.ofResult, hinterrupted, if_true]
          exact htallies.recordSuperseded id
      | false =>
          simp only [PassMetrics.recordResult, Outcome.ofResult, hinterrupted, Bool.false_eq_true,
            if_false]
          refine htallies.of_ending id rfl rfl (fun other => ?_) htallies.failures
          cases other <;>
            simp [PassMetrics.counted, PassMetrics.recordEnd, PassTimer.record]

theorem endedAs_dismissed (way : Ending) (ids : List PassId) :
    endedAs way (ids.map fun id => (id, .superseded)) = uncounted ids.length way := by
  cases way <;> simp [endedAs, uncounted, List.countP_map, Function.comp_def, Outcome.ending]

theorem uncounted_add (first second : Nat) (way : Ending) :
    uncounted (first + second) way = uncounted first way + uncounted second way := by
  cases way <;> rfl

/-- Passes that are given up with the worker are not counted. -/
theorem dismiss (htallies : metrics.Tallies resolved admitted dismissed) (ids : List PassId) :
    metrics.Tallies (resolved ++ ids.map fun id => (id, .superseded)) admitted
      (dismissed + ids.length) where
  submitted := htallies.submitted
  counted way := by
    rw [endedAs_append, endedAs_dismissed, uncounted_add, UInt64.ofNat_add, UInt64.ofNat_add,
      ← htallies.counted way, UInt64.add_assoc]
  failures := htallies.failures
  ways := by
    have hbefore := htallies.ways
    simp only [endedAs_append, endedAs_dismissed, List.length_append, List.length_map, uncounted]
    omega

/-- The passes accepted are those counted, those that wait and those that were given up. -/
theorem balance (htallies : metrics.Tallies resolved admitted dismissed) {waiting : Nat}
    (hall : admitted = resolved.length + waiting) :
    metrics.submitted = metrics.completed.count + metrics.failed + metrics.superseded +
      UInt64.ofNat waiting + UInt64.ofNat dismissed := by
  have hscheduled := htallies.counted .scheduled
  have hfailed := htallies.counted .failed
  have hsuperseded := htallies.counted .superseded
  have hzero : UInt64.ofNat 0 = 0 := rfl
  simp only [PassMetrics.counted, uncounted, hzero, UInt64.add_zero]
    at hscheduled hfailed hsuperseded
  calc metrics.submitted
      = UInt64.ofNat (endedAs .scheduled resolved) + UInt64.ofNat (endedAs .failed resolved) +
          UInt64.ofNat (endedAs .superseded resolved) + UInt64.ofNat waiting := by
        rw [htallies.submitted, hall, htallies.ways]
        simp only [UInt64.ofNat_add]
    _ = metrics.completed.count + metrics.failed +
          (metrics.superseded + UInt64.ofNat dismissed) + UInt64.ofNat waiting := by
        rw [hscheduled, hfailed, hsuperseded]
    _ = metrics.completed.count + metrics.failed + metrics.superseded +
          UInt64.ofNat waiting + UInt64.ofNat dismissed := by
        ac_rfl

end PassMetrics.Tallies

namespace Account

variable {account after : Account}

/-- The counters of an account agree with what happened. -/
def Tallied (account : Account) : Prop :=
  account.metrics.Tallies account.resolved account.admitted.length account.dismissed.length

theorem Tallied.turn (htallied : account.Tallied) (hturn : Turn account after) :
    after.Tallied := by
  cases hturn with
  | @accept id _ =>
      rw [Tallied, List.length_append]
      exact htallied.recordSubmitted
  | @skip id _ _ _ => exact htallied.recordSuperseded id
  | take => exact htallied
  | @abandon id _ => exact (htallied.moveAbandoned 1).recordSuperseded id
  | @finish id _ result => exact htallied.recordResult id result
  | returnLate => exact htallied.moveAbandoned (-1)
  | returnUnheard => exact htallied
  | dismiss =>
      rw [Tallied, List.length_append]
      exact htallied.dismiss account.waiting

theorem tallied_of_turns (hturns : Turns {} account) : account.Tallied := by
  induction hturns with
  | refl => exact PassMetrics.Tallies.empty
  | tail _ hturn ih => exact ih.turn hturn

end Account

namespace Executor

variable {Work : Type} {executor : Executor Work}

/-- A pass has no outcome as long as it is not resolved. -/
theorem outcomeOf_eq_none_iff {id : PassId} :
    executor.outcomeOf id = none ↔ id ∉ executor.resolved.map (·.1) := by
  rw [outcomeOf, List.lookup_eq_none_iff]
  simp only [List.mem_map, not_exists, not_and, bne_iff_ne, ne_eq]
  exact forall₂_congr fun _ _ => not_congr eq_comm

/-- Only a closed executor refuses a pass. -/
theorem Disciplined.metrics_submit_of_refused (hdisciplined : executor.Disciplined) {work : Work} {error : Error}
    (hrefused : (executor.submit work).1 = .error error) :
    (executor.submit work).2.metrics = executor.metrics := by
  cases hclosed : executor.closed with
  | true => rw [submit_of_closed hclosed]
  | false =>
      rw [hdisciplined.submit_of_open hclosed] at hrefused
      cases hrefused

end Executor

namespace Service

variable {Work : Type} {service : Service Work}

/-- The accepted passes that have no outcome. -/
def waiting (service : Service Work) : List PassId :=
  service.admitted.filter fun id => (service.executor.outcomeOf id).isNone

/-- What the counters of an executor tell about the passes that it has accepted. -/
structure Balanced (service : Service Work) : Prop where
  /-- No number is given to two passes. -/
  distinct : service.admitted.Nodup
  /-- No pass is resolved twice. -/
  once : (service.executor.resolved.map (·.1)).Nodup
  /-- Only accepted passes are resolved. -/
  accepted : ∀ id ∈ service.executor.resolved.map (·.1), id ∈ service.admitted
  /-- Every accepted pass was counted by the way it ended, or it waits, or it was given up with the
  worker. -/
  balance : service.executor.metrics.submitted =
    service.executor.metrics.completed.count + service.executor.metrics.failed +
      service.executor.metrics.superseded + UInt64.ofNat service.waiting.length +
      UInt64.ofNat service.dismissed.length
  /-- Each way of ending has a counter of its own. -/
  counted : ∀ way, service.executor.metrics.counted way +
      UInt64.ofNat (uncounted service.dismissed.length way) =
    UInt64.ofNat (endedAs way service.executor.resolved)
  /-- Every failure is counted under its kind. -/
  failures : service.executor.metrics.failures.total = service.executor.metrics.failed
  /-- Passes are given up only by shutting down, and whoever does so is told. -/
  givenUp : service.dismissed ≠ [] → false ∈ service.answers
  /-- A pass that is given up counts as overtaken to those who hold its handle. -/
  overtaken : ∀ id ∈ service.dismissed, service.executor.outcomeOf id = some .superseded
  /-- A submission that is refused moves no counter. -/
  refused : ∀ work error, (service.executor.submit work).1 = .error error →
    (service.executor.submit work).2.metrics = service.executor.metrics
  /-- Once somebody has been told that the executor is shut down, no pass waits any more. -/
  answered : service.answers ≠ [] → service.waiting = []

/-- The passes without an outcome are those that the worker has or has not taken. -/
theorem Sound.waiting_eq (hsound : service.Sound) :
    service.waiting = service.account.waiting := by
  have hkept := hsound.kept
  have hline : service.admitted = service.executor.resolved.map (·.1) ++ service.account.waiting :=
    hkept.inLine.symm
  have hresolved : (service.executor.resolved.map (·.1)).filter
      (fun id => (service.executor.outcomeOf id).isNone) = [] := by
    refine List.filter_eq_nil_iff.mpr fun id hmem hnone => ?_
    exact Executor.outcomeOf_eq_none_iff.mp (Option.isNone_iff_eq_none.mp hnone) hmem
  have hwaiting : service.account.waiting.filter
      (fun id => (service.executor.outcomeOf id).isNone) = service.account.waiting := by
    refine List.filter_eq_self.mpr fun id hmem => Option.isNone_iff_eq_none.mpr ?_
    exact Executor.outcomeOf_eq_none_iff.mpr (hkept.not_resolved hmem)
  rw [waiting, hline, List.filter_append, hresolved, hwaiting, List.nil_append]

/-- The counters of an executor are balanced, whatever it goes through. -/
theorem balanced_served (name : String) (steps : List (ServiceStep Work)) :
    ((new name).served steps : Service Work).Balanced := by
  have hupright := (upright_new name : (new name : Service Work).Upright).served steps
  generalize (new name : Service Work).served steps = service at hupright
  have hkept := hupright.kept
  have htallies := Account.tallied_of_turns hupright.turns
  constructor
  case distinct => exact hkept.distinct
  case once => exact hkept.resolved_nodup
  case accepted =>
    intro id hmem
    have hline : id ∈ service.account.admitted := hkept.inLine ▸ List.mem_append_left _ hmem
    exact hline
  case balance =>
    refine htallies.balance ?_
    rw [hupright.waiting_eq, ← hkept.inLine, List.length_append, List.length_map]
  case counted => exact htallies.counted
  case failures => exact htallies.failures
  case givenUp => exact hupright.told
  case overtaken =>
    intro id hmem
    exact hupright.disciplined.outcomeOf_of_mem (hkept.dismissed id hmem)
  case refused =>
    intro work error hrefused
    exact hupright.disciplined.metrics_submit_of_refused hrefused
  case answered =>
    intro hanswered
    rw [hupright.waiting_eq, waiting_account]
    cases hawaited : service.executor.awaited with
    | true => rw [(hupright.waited hawaited).2, List.map_nil]
    | false => exact absurd (hupright.unwaited hawaited).2.2 hanswered

end Service

end Custody
