/-
# What a whole pass comes to

A scheduling pass that gained nothing returns before it asks for anything.  Otherwise it goes through
the items of its source up to the first failure or to the first item that it sees after it was
cancelled, whichever comes first; when both come at the same item, the cancellation does.  What it arms
is read off the candidates that it got to: of those whose segment was gained, that the gate owns and
that were free, the first for each entry.  The report counts the candidates, and a failure is reported
in place of it, without taking anything back.
-/

import Custody.Proofs.Scheduler.Tally

namespace Custody

variable {K : Type}

/-- The report of a pass that got to some candidates and armed some of them. -/
def Report.ofCounts (visited armed : Nat) : Report where
  visited := UInt64.ofNat visited
  armed := UInt64.ofNat armed
  skipped := UInt64.ofNat (visited - armed)

/-- Every candidate was armed or skipped. -/
theorem Report.ofCounts_visited {visited armed : Nat} (hle : armed ≤ visited) :
    (ofCounts visited armed).visited =
      (ofCounts visited armed).armed + (ofCounts visited armed).skipped := by
  simp only [ofCounts]
  rw [← UInt64.ofNat_add, Nat.add_sub_cancel' hle]

/-- How a pass ends that has got to `visited` candidates, given the items that are left. -/
inductive Concludes (untilCancelled : Option Nat) (visited : Nat) (report : Report) :
    (rest : List (Item K)) → Except Error Report → Prop where
  /-- Nothing is left. -/
  | finished : Concludes untilCancelled visited report [] (.ok report)
  /-- The pass was cancelled; the next item is not looked at, whatever it is. -/
  | cancelled (item : Item K) (later : List (Item K)) (hcancelled : untilCancelled = some visited) :
      Concludes untilCancelled visited report (item :: later) (.ok { report with interrupted := true })
  /-- The next item is a failure, and the pass was not cancelled before it. -/
  | failed (failure : Error) (later : List (Item K)) (hgoes : untilCancelled ≠ some visited) :
      Concludes untilCancelled visited report (.error failure :: later) (.error failure)

namespace Concludes

variable {untilCancelled : Option Nat} {visited : Nat} {report : Report} {rest : List (Item K)}
  {result : Except Error Report}

/-- Where a pass ends does not depend on how many candidates it got to before. -/
theorem succ (hgoes : untilCancelled ≠ some 0)
    (hends : Concludes (untilCancelled.map (· - 1)) visited report rest result) :
    Concludes untilCancelled (visited + 1) report rest result := by
  have hshift : untilCancelled.map (· - 1) = some visited ↔ untilCancelled = some (visited + 1) := by
    rcases untilCancelled with _ | _ | remaining
    · simp
    · exact absurd rfl hgoes
    · simp
  cases hends with
  | finished => exact .finished
  | cancelled item later hcancelled => exact .cancelled item later (hshift.mp hcancelled)
  | failed failure later hgoes => exact .failed failure later fun hsome => hgoes (hshift.mpr hsome)

/-- A pass that succeeds has counted as it went, and was interrupted when something is left. -/
theorem of_ok {counted : Report}
    (hends : Concludes untilCancelled visited report rest (.ok counted)) :
    counted = { report with interrupted := counted.interrupted } ∧
      (report.interrupted = false → (counted.interrupted = true ↔ rest ≠ [])) := by
  cases hends with
  | finished => exact ⟨rfl, fun hnone => by simp [hnone]⟩
  | cancelled item later hcancelled => exact ⟨rfl, fun _ => by simp⟩

end Concludes

namespace Scheduler

variable [DecidableEq K]

/-- A pass offers the candidates that it gets to, which come first among its items, and ends with what
is left of these. -/
theorem placeAll_reached (gained : SegmentLocality K) (items : List (Item K))
    (scheduler : Scheduler K) (untilCancelled : Option Nat) (report : Report) :
    ∃ rest counted result after,
      items = (reached items untilCancelled).map .ok ++ rest ∧
      (∀ limit, untilCancelled = some limit → (reached items untilCancelled).length ≤ limit) ∧
      scheduler.placeAll gained ((reached items untilCancelled).map .ok) none report =
        (.ok counted, after) ∧
      Concludes untilCancelled (reached items untilCancelled).length counted rest result ∧
      scheduler.placeAll gained items untilCancelled report = (result, after) := by
  induction items generalizing scheduler untilCancelled report with
  | nil =>
      rw [reached_nil]
      exact ⟨[], report, _, scheduler, rfl, fun _ _ => Nat.zero_le _, rfl, .finished, rfl⟩
  | cons item rest ih =>
      by_cases hcancelled : untilCancelled = some 0
      · subst hcancelled
        rw [reached_cancelled]
        exact ⟨item :: rest, report, _, scheduler, rfl, fun _ _ => Nat.zero_le _, rfl,
          .cancelled item rest rfl, if_pos rfl⟩
      · cases item with
        | error failure =>
            rw [reached_error]
            exact ⟨.error failure :: rest, report, _, scheduler, rfl, fun _ _ => Nat.zero_le _, rfl,
              .failed failure rest hcancelled, if_neg hcancelled⟩
        | ok candidate =>
            obtain ⟨left, counted, result, after, hsplit, hlimit, hoffered, hends, hall⟩ :=
              ih (scheduler.place gained candidate report).2 (untilCancelled.map (· - 1))
                (scheduler.place gained candidate report).1
            rw [reached_ok candidate rest hcancelled]
            refine ⟨left, counted, result, after, congrArg (.ok candidate :: ·) hsplit, ?_, hoffered,
              hends.succ hcancelled, (if_neg hcancelled).trans hall⟩
            rintro limit rfl
            have hbelow := hlimit (limit - 1) rfl
            have hpositive : limit ≠ 0 := fun hzero => hcancelled (congrArg some hzero)
            rw [List.length_cons]
            omega

/-- What a pass arms, reports and leaves once its source has listed some items. -/
theorem placeAll_arms_takings (scheduler : Scheduler K) (gained : SegmentLocality K)
    (items : List (Item K)) (untilCancelled : Option Nat) :
    ∃ rest result after,
      scheduler.placeAll gained items untilCancelled {} = (result, after) ∧
      items = (reached items untilCancelled).map .ok ++ rest ∧
      (∀ limit, untilCancelled = some limit → (reached items untilCancelled).length ≤ limit) ∧
      (∃ added, after.armed = scheduler.armed ++ added ∧
        after.timers = scheduler.timers ++ added.map (⟨·, false⟩) ∧
        added.map Arming.candidate = scheduler.takings gained (reached items untilCancelled)) ∧
      Concludes untilCancelled (reached items untilCancelled).length
        (.ofCounts (reached items untilCancelled).length (after.size - scheduler.size))
        rest result ∧
      ∀ report, result = .ok report →
        report.visited = report.armed + report.skipped ∧
        (report.interrupted = true ↔ rest ≠ []) := by
  obtain ⟨rest, counted, result, after, hsplit, hlimit, hoffered, hends, hall⟩ :=
    scheduler.placeAll_reached gained items untilCancelled {}
  obtain ⟨placed, added, hplaced, harmed, htimers, hadded⟩ :=
    placeAll_eq scheduler gained (reached items untilCancelled) {}
  obtain ⟨hcounted, rfl⟩ := Prod.mk.inj (hoffered.symm.trans hplaced)
  have hgrowth : (scheduler.takings gained (reached items untilCancelled)).length =
      after.size - scheduler.size := by
    rw [← hadded, List.length_map, size, size, harmed, List.length_append, Nat.add_sub_cancel_left]
  have hfew := length_takings_le scheduler gained (reached items untilCancelled)
  rw [hgrowth] at hcounted hfew
  have hreport : counted =
      .ofCounts (reached items untilCancelled).length (after.size - scheduler.size) := by
    rw [Except.ok.inj hcounted]
    simp only [Report.ofCounts, UInt64.zero_add]
  rw [hreport] at hends
  refine ⟨rest, result, after, hall, hsplit, hlimit, ⟨added, harmed, htimers, hadded⟩, hends, ?_⟩
  rintro report rfl
  obtain ⟨hsame, hleft⟩ := hends.of_ok
  refine ⟨?_, hleft rfl⟩
  rw [hsame]
  exact Report.ofCounts_visited hfew

/-- A scheduling pass from one locality to the next, in any state of the scheduler.  If nothing was
gained it returns at its start, with an empty report.  Otherwise it asks its source.  A source that
refuses to list anything changes nothing.  Of the items that it lists the pass gets to those before the
first failure or before the first that it sees cancelled.  Behind what was armed before, which stays as
it was, it arms for each entry the first candidate that was gained, is owned and was free, with its
deadline and a timer that runs to it; a scheduler that is shut down takes none.  A report counts the candidates, those that were
armed, and those that were not, and says whether something is left; a failure stands for itself. -/
theorem reconcile_arms_takings (scheduler : Scheduler K) (old new : SegmentLocality K)
    (source : SegmentLocality K → Except Error (List (Item K))) (untilCancelled : Option Nat) :
    ((∀ segment, segment ∈ new.segments → segment ∈ old.segments) →
      (SchedulingPass.waiting old new).start = .returned (.ok {}) ∧
        scheduler.reconcile old new source untilCancelled = (.ok {}, scheduler)) ∧
    ∀ segment, segment ∈ new.segments → ¬ segment ∈ old.segments →
      (SchedulingPass.waiting old new).start = .asking (new.gainedSince old) ∧
      (∀ failure, source (new.gainedSince old) = .error failure →
        scheduler.reconcile old new source untilCancelled = (.error failure, scheduler)) ∧
      ∀ items, source (new.gainedSince old) = .ok items →
        ∃ rest result after,
          scheduler.reconcile old new source untilCancelled = (result, after) ∧
          items = (reached items untilCancelled).map .ok ++ rest ∧
          (∀ limit, untilCancelled = some limit →
            (reached items untilCancelled).length ≤ limit) ∧
          (∃ added, after.armed = scheduler.armed ++ added ∧
            after.timers = scheduler.timers ++ added.map (⟨·, false⟩) ∧
            added.map Arming.candidate =
              scheduler.takings (new.gainedSince old) (reached items untilCancelled)) ∧
          Concludes untilCancelled (reached items untilCancelled).length
            (.ofCounts (reached items untilCancelled).length (after.size - scheduler.size))
            rest result ∧
          ∀ report, result = .ok report →
            report.visited = report.armed + report.skipped ∧
            (report.interrupted = true ↔ rest ≠ []) := by
  have hempty : (new.gainedSince old).segments.isEmpty = old.segments.includes new.segments :=
    SegmentSet.isEmpty_diff _ _
  refine ⟨fun hnone => ?_, fun segment hnew hold => ?_⟩
  · rw [SegmentSet.includes_eq_true.mpr hnone] at hempty
    exact ⟨if_pos hempty, if_pos hempty⟩
  · have hsome : ¬ (new.gainedSince old).segments.isEmpty = true := by
      rw [hempty, SegmentSet.includes_eq_true]
      exact fun hall => hold (hall segment hnew)
    refine ⟨if_neg hsome, fun failure hfailure => ?_, fun items hitems => ?_⟩
    · rw [reconcile, if_neg hsome, hfailure]
    · rw [reconcile, if_neg hsome, hitems]
      exact scheduler.placeAll_arms_takings (new.gainedSince old) items untilCancelled

/-- The first few of four segments, as the first node has them under a topology. -/
def firstSegments (count : Nat) (topology : TopologyId) : SegmentLocality UInt64 :=
  ⟨.modulo 4, .below count fun _ => true, topology, 1⟩

/-- The gate owns two segments, and an entry of the second is armed. -/
def halfway : Scheduler UInt64 :=
  (((new 0).install 1 (.segments (firstSegments 2 1))).2.schedule 5 10).2

/-- Two candidates for one entry, one of a segment that was had before, one that the gate does not own,
one that is armed, one more, and a failure. -/
def mixedItems : List (Item UInt64) :=
  [.ok ⟨1, 50⟩, .ok ⟨1, 70⟩, .ok ⟨4, 60⟩, .ok ⟨2, 60⟩, .ok ⟨5, 80⟩, .ok ⟨9, 90⟩,
    .error (.enumeration "unreadable")]

/-- Two of six candidates are armed.  The failure behind them is not looked at by a pass that is cancelled
there, and is what comes of one that is not. -/
theorem reconcile_arms_takings_halfway :
    1 ∈ (firstSegments 3 2).segments ∧ ¬ 1 ∈ (firstSegments 1 1).segments ∧
      (∃ added, (halfway.reconcile (firstSegments 1 1) (firstSegments 3 2)
          (fun _ => .ok mixedItems) (some 6)).2.armed = halfway.armed ++ added ∧
        (halfway.reconcile (firstSegments 1 1) (firstSegments 3 2)
          (fun _ => .ok mixedItems) (some 6)).2.timers =
            halfway.timers ++ added.map (⟨·, false⟩) ∧
        added.map Arming.candidate = [⟨1, 50⟩, ⟨9, 90⟩]) ∧
      (halfway.reconcile (firstSegments 1 1) (firstSegments 3 2) (fun _ => .ok mixedItems)
        (some 6)).1 = .ok ⟨6, 2, 4, true⟩ ∧
      (halfway.reconcile (firstSegments 1 1) (firstSegments 3 2) (fun _ => .ok mixedItems)
        none).1 = .error (.enumeration "unreadable") ∧
      halfway.reconcile (firstSegments 3 2) (firstSegments 3 2) (fun _ => .ok mixedItems) none =
        (.ok {}, halfway) := by
  have hnew : 1 ∈ (firstSegments 3 2).segments := by decide
  have hold : ¬ 1 ∈ (firstSegments 1 1).segments := by decide
  have htaken : halfway.takings ((firstSegments 3 2).gainedSince (firstSegments 1 1))
      (reached mixedItems (some 6)) = [⟨1, 50⟩, ⟨9, 90⟩] := by decide +kernel
  obtain ⟨rest, result, after, hpass, -, -, ⟨added, harmed, htimers, hadded⟩, -⟩ :=
    ((reconcile_arms_takings halfway (firstSegments 1 1) (firstSegments 3 2)
      (fun _ => .ok mixedItems) (some 6)).2 1 hnew hold).2.2 mixedItems rfl
  have hnothing := (reconcile_arms_takings halfway (firstSegments 3 2) (firstSegments 3 2)
    (fun _ => .ok mixedItems) none).1 fun _ => id
  refine ⟨hnew, hold, ⟨added, by rw [hpass, harmed], by rw [hpass, htimers],
    hadded.trans htaken⟩, by decide +kernel, by decide +kernel, hnothing.2⟩

end Scheduler

end Custody
