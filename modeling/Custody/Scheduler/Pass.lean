/-
# Scheduling passes

A scheduling pass arms the entries of the segments that a node has gained.  It asks a source for
candidates and goes through them one by one.  Before each candidate it looks whether it was
cancelled, and a candidate is offered to the scheduler only if its segment was gained; the scheduler
decides by its own gate.  A pass can be held up between any two of these steps, and its stage says
where.  What it does as a whole, with nothing in between, is given beside it.
-/

import Custody.Scheduler.Basic

namespace Custody

/-- An entry that may be armed. -/
structure Candidate (K : Type) where
  id : K
  deadline : Instant
deriving DecidableEq, Repr

/-- What a source produces next: a candidate, or the reason why it cannot. -/
abbrev Item (K : Type) := Except Error (Candidate K)

namespace Scheduler

variable {K : Type} [DecidableEq K]

/-- Offer one candidate to the scheduler and note in the report what became of it. -/
def place (scheduler : Scheduler K) (gained : SegmentLocality K) (candidate : Candidate K)
    (report : Report) : Report × Scheduler K :=
  let report := { report with visited := report.visited + 1 }
  if !gained.owns candidate.id then
    ({ report with skipped := report.skipped + 1 }, scheduler)
  else
    match scheduler.schedule candidate.id candidate.deadline with
    | (true, scheduler) => ({ report with armed := report.armed + 1 }, scheduler)
    | (false, scheduler) => ({ report with skipped := report.skipped + 1 }, scheduler)

/-- Go through the items of a source.  `untilCancelled` is the number of items that are still seen
before the pass is cancelled, if it is; a cancelled pass stops before it looks at the next item. -/
def placeAll (scheduler : Scheduler K) (gained : SegmentLocality K) :
    (items : List (Item K)) → (untilCancelled : Option Nat) → Report →
      Except Error Report × Scheduler K
  | [], _, report => (.ok report, scheduler)
  | item :: rest, untilCancelled, report =>
      if untilCancelled = some 0 then (.ok { report with interrupted := true }, scheduler)
      else
        match item with
        | .error failure => (.error failure, scheduler)
        | .ok candidate =>
            let (report, scheduler) := scheduler.place gained candidate report
            placeAll scheduler gained rest (untilCancelled.map (· - 1)) report

/-- A whole scheduling pass from one locality to the next.  When nothing was gained the source is
not asked. -/
def reconcile (scheduler : Scheduler K) (old new : SegmentLocality K)
    (source : SegmentLocality K → Except Error (List (Item K))) (untilCancelled : Option Nat) :
    Except Error Report × Scheduler K :=
  let gained := new.gainedSince old
  if gained.segments.isEmpty then (.ok {}, scheduler)
  else
    match source gained with
    | .error failure => (.error failure, scheduler)
    | .ok items => scheduler.placeAll gained items untilCancelled {}

end Scheduler

/-- How far a scheduling pass has come. -/
inductive SchedulingPass (K : Type) where
  /-- Its work has not begun. -/
  | waiting (old new : SegmentLocality K)
  /-- The source was asked and has not answered. -/
  | asking (gained : SegmentLocality K)
  /-- The rest of the candidates is still to be gone through. -/
  | reading (gained : SegmentLocality K) (rest : List (Item K)) (report : Report)
  /-- The pass was not cancelled when it last looked, and has a candidate in hand. -/
  | holding (gained : SegmentLocality K) (candidate : Candidate K) (rest : List (Item K))
      (report : Report)
  /-- The work has returned. -/
  | returned (result : Except Error Report)

namespace SchedulingPass

variable {K : Type}

/-- Begin: ask the source, unless nothing was gained. -/
def start : SchedulingPass K → SchedulingPass K
  | waiting old new =>
      let gained := new.gainedSince old
      if gained.segments.isEmpty then returned (.ok {}) else asking gained
  | pass => pass

/-- The source answers. -/
def answer (answered : Except Error (List (Item K))) : SchedulingPass K → SchedulingPass K
  | asking gained =>
      match answered with
      | .ok items => reading gained items {}
      | .error failure => returned (.error failure)
  | pass => pass

/-- Look whether the pass was cancelled and take the next candidate in hand. -/
def look (cancelled : Bool) : SchedulingPass K → SchedulingPass K
  | reading _ [] report => returned (.ok report)
  | reading gained (item :: rest) report =>
      if cancelled then returned (.ok { report with interrupted := true })
      else
        match item with
        | .error failure => returned (.error failure)
        | .ok candidate => holding gained candidate rest report
  | pass => pass

/-- Offer the candidate in hand to the scheduler. -/
def offer [DecidableEq K] (scheduler : Scheduler K) :
    SchedulingPass K → SchedulingPass K × Scheduler K
  | holding gained candidate rest report =>
      let (report, scheduler) := scheduler.place gained candidate report
      (reading gained rest report, scheduler)
  | pass => (pass, scheduler)

/-- Go on to the end from wherever candidates are being gone through, nothing else happening
meanwhile. -/
def finish [DecidableEq K] (cancelled : Bool) (scheduler : Scheduler K) :
    SchedulingPass K → SchedulingPass K × Scheduler K
  | reading gained rest report =>
      let (result, scheduler) :=
        scheduler.placeAll gained rest (if cancelled then some 0 else none) report
      (returned result, scheduler)
  | holding gained candidate rest report =>
      let (report, scheduler) := scheduler.place gained candidate report
      let (result, scheduler) :=
        scheduler.placeAll gained rest (if cancelled then some 0 else none) report
      (returned result, scheduler)
  | pass => (pass, scheduler)

end SchedulingPass

end Custody
