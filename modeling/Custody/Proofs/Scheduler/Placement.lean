/-
# What a pass places

A scheduling pass offers its candidates one by one, and a scheduler takes those that were gained, are
owned and are free.  What it takes is armed behind what was armed before; nothing that was armed is
touched.  A candidate that was offered is not taken a second time.

Two schedulers are alike when they have the same gate, are both open or both shut down, and have the
same entries armed to the same deadlines.  They may still differ in their timers and in the numbers
of their armings, and no operation that follows sees the difference.
-/

import Custody.Store
import Custody.Proofs.Scheduler.Operations

namespace Custody

variable {K : Type}

/-- What an arming was asked for. -/
def Arming.candidate (arming : Arming K) : Candidate K := ⟨arming.id, arming.deadline⟩

namespace Scheduler

/-- The armed entries with their deadlines. -/
def entries (scheduler : Scheduler K) : List (Candidate K) := scheduler.armed.map Arming.candidate

/-- Whether every timer is still to come. -/
def TimersAhead (scheduler : Scheduler K) : Prop :=
  ∀ timer ∈ scheduler.timers, scheduler.now < timer.arming.deadline

/-- Schedulers that differ in timers, numbers and metrics only. -/
structure Alike (first second : Scheduler K) : Prop where
  gate : first.gate = second.gate
  closed : first.closed = second.closed
  entries : first.entries = second.entries

@[simp] theorem closed_install (scheduler : Scheduler K) (topology : TopologyId)
    (locality : Locality K) :
    (scheduler.install topology locality).2.closed = scheduler.closed := by
  obtain ⟨gate, h⟩ := scheduler.install_eq topology locality
  rw [h]

@[simp] theorem closed_cancelUnowned (scheduler : Scheduler K) (topology : TopologyId)
    (locality : Locality K) :
    (scheduler.cancelUnowned topology locality).2.closed = scheduler.closed := by
  rcases scheduler.cancelUnowned_cases topology locality with ⟨newer, -, -, h⟩ | ⟨-, h⟩
  · rw [h]
  · rw [h]
    rfl

/-- What a locality does not cover is taken back. -/
theorem entries_disarm (scheduler : Scheduler K) (locality : Locality K) :
    (scheduler.disarm fun arming => !locality.owns arming.id).2.entries =
      scheduler.entries.filter fun entry => locality.owns entry.id := by
  simp only [disarm, entries, Bool.not_not, List.filter_map]
  rfl

namespace Alike

variable {first second third : Scheduler K}

theorem refl (scheduler : Scheduler K) : scheduler.Alike scheduler := ⟨rfl, rfl, rfl⟩

theorem symm (halike : first.Alike second) : second.Alike first :=
  ⟨halike.gate.symm, halike.closed.symm, halike.entries.symm⟩

theorem trans (hfirst : first.Alike second) (hsecond : second.Alike third) : first.Alike third :=
  ⟨hfirst.gate.trans hsecond.gate, hfirst.closed.trans hsecond.closed,
    hfirst.entries.trans hsecond.entries⟩

/-- Schedulers that are alike accept the same localities. -/
theorem install (halike : first.Alike second) (topology : TopologyId) (locality : Locality K) :
    (first.install topology locality).2.Alike (second.install topology locality).2 := by
  rcases first.install_cases topology locality with ⟨newer, htold, holder, h⟩ | ⟨hle, h⟩
  · rw [h, install_of_lt (halike.gate ▸ htold) holder]
    exact halike
  · rw [h, install_of_le (halike.gate ▸ hle)]
    exact ⟨rfl, halike.closed, halike.entries⟩

theorem cancelUnowned (halike : first.Alike second) (topology : TopologyId)
    (locality : Locality K) :
    (first.cancelUnowned topology locality).2.Alike (second.cancelUnowned topology locality).2 := by
  rcases first.cancelUnowned_cases topology locality with ⟨newer, htold, holder, h⟩ | ⟨hle, h⟩
  · rw [h, cancelUnowned_of_lt (halike.gate ▸ htold) holder]
    exact halike
  · rw [h, cancelUnowned_of_le (halike.gate ▸ hle)]
    refine ⟨rfl, halike.closed, ?_⟩
    rw [entries_disarm, entries_disarm]
    exact congrArg _ halike.entries

end Alike

variable [DecidableEq K]

theorem contains_eq_any (scheduler : Scheduler K) (id : K) :
    scheduler.contains id = scheduler.entries.any fun entry => entry.id = id := by
  simp only [contains, entries, List.any_map]
  rfl

theorem Alike.contains {first second : Scheduler K} (halike : first.Alike second) (id : K) :
    first.contains id = second.contains id := by
  rw [contains_eq_any, contains_eq_any, halike.entries]

/-- A candidate of a pass that the scheduler arms when it is offered. -/
structure Takes (scheduler : Scheduler K) (gained : SegmentLocality K) (candidate : Candidate K) :
    Prop where
  isOpen : scheduler.closed = false
  gained : gained.owns candidate.id = true
  owned : scheduler.gate.locality.owns candidate.id = true
  free : scheduler.contains candidate.id = false

variable {gained : SegmentLocality K} {candidate : Candidate K} {scheduler : Scheduler K}

theorem place_of_takes (htakes : scheduler.Takes gained candidate) (report : Report) :
    scheduler.place gained candidate report =
      ({ report with visited := report.visited + 1, armed := report.armed + 1 },
        scheduler.arm candidate.id candidate.deadline) := by
  simp [place, schedule, htakes.isOpen, htakes.gained, htakes.owned, htakes.free]

/-- A candidate that is not taken is skipped, and at most a counter changes. -/
theorem place_of_not_takes (hleft : ¬ scheduler.Takes gained candidate) (report : Report) :
    ∃ metrics, metrics.cancelled = scheduler.metrics.cancelled ∧
      scheduler.place gained candidate report =
        ({ report with visited := report.visited + 1, skipped := report.skipped + 1 },
          { scheduler with metrics := metrics }) := by
  cases hgained : gained.owns candidate.id with
  | false => exact ⟨scheduler.metrics, rfl, by simp [place, hgained]⟩
  | true =>
      have hskipped : ∀ metrics, scheduler.schedule candidate.id candidate.deadline =
          (false, { scheduler with metrics := metrics }) →
          scheduler.place gained candidate report =
            ({ report with visited := report.visited + 1, skipped := report.skipped + 1 },
              { scheduler with metrics := metrics }) := by
        intro metrics hrefused
        simp [place, hgained, hrefused]
      by_cases hclosed : scheduler.closed = true
      · refine ⟨scheduler.metrics, rfl, hskipped _ ?_⟩
        rw [schedule, if_pos hclosed]
      · have hopen := eq_false_of_ne_true hclosed
        by_cases howned : scheduler.gate.locality.owns candidate.id = true
        · by_cases hcontains : scheduler.contains candidate.id = true
          · refine ⟨scheduler.metrics.recordDuplicate, rfl, hskipped _ ?_⟩
            simp [schedule, hopen, howned, hcontains]
          · exact absurd ⟨hopen, hgained, howned, eq_false_of_ne_true hcontains⟩ hleft
        · refine ⟨scheduler.metrics.recordNotOwned, rfl, hskipped _ ?_⟩
          simp [schedule, hopen, howned]

/-- Candidates were offered to a scheduler: some of those that were gained are armed now behind what
was armed before. -/
structure Extends (gained : SegmentLocality K) (offered : List (Candidate K))
    (before after : Scheduler K) : Prop where
  gate : after.gate = before.gate
  now : after.now = before.now
  closed : after.closed = before.closed
  cancelled : after.metrics.cancelled = before.metrics.cancelled
  armed : ∃ added, after.armed = before.armed ++ added ∧
    ∀ arming ∈ added, gained.owns arming.id = true
  timers : ∀ timer ∈ after.timers,
    timer ∈ before.timers ∨ timer.arming.candidate ∈ offered

namespace Extends

omit [DecidableEq K] in
theorem refl (gained : SegmentLocality K) (scheduler : Scheduler K) :
    Extends gained [] scheduler scheduler :=
  ⟨rfl, rfl, rfl, rfl, ⟨[], (List.append_nil _).symm, List.forall_mem_nil _⟩,
    fun _ hmem => Or.inl hmem⟩

omit [DecidableEq K] in
theorem trans {first second third : Scheduler K} {offered later : List (Candidate K)}
    (hfirst : Extends gained offered first second) (hsecond : Extends gained later second third) :
    Extends gained (offered ++ later) first third where
  gate := hsecond.gate.trans hfirst.gate
  now := hsecond.now.trans hfirst.now
  closed := hsecond.closed.trans hfirst.closed
  cancelled := hsecond.cancelled.trans hfirst.cancelled
  armed := by
    obtain ⟨added, harmed, howned⟩ := hfirst.armed
    obtain ⟨more, harmed', howned'⟩ := hsecond.armed
    refine ⟨added ++ more, by rw [harmed', harmed, List.append_assoc], fun arming hmem => ?_⟩
    rcases List.mem_append.mp hmem with hold | hnew
    · exact howned arming hold
    · exact howned' arming hnew
  timers timer hmem := by
    rcases hsecond.timers timer hmem with hbefore | hoffered
    · rcases hfirst.timers timer hbefore with hold | hearlier
      · exact Or.inl hold
      · exact Or.inr (List.mem_append_left _ hearlier)
    · exact Or.inr (List.mem_append_right _ hoffered)

/-- What was armed before is armed afterwards. -/
theorem contains {before after : Scheduler K} {offered : List (Candidate K)}
    (hextends : Extends gained offered before after) {id : K}
    (hcontains : before.contains id = true) : after.contains id = true := by
  obtain ⟨added, harmed, -⟩ := hextends.armed
  obtain ⟨arming, hmem, hid⟩ := contains_eq_true.mp hcontains
  apply contains_eq_true.mpr
  exact ⟨arming, harmed ▸ List.mem_append_left _ hmem, hid⟩

/-- Whoever would take a candidate now would have taken it before. -/
theorem takes {before after : Scheduler K} {offered : List (Candidate K)}
    (hextends : Extends gained offered before after) (htakes : after.Takes gained candidate) :
    before.Takes gained candidate := by
  refine ⟨hextends.closed ▸ htakes.isOpen, htakes.gained, hextends.gate ▸ htakes.owned, ?_⟩
  apply eq_false_of_ne_true
  intro hcontains
  exact absurd ((hextends.contains hcontains).symm.trans htakes.free) Bool.noConfusion

end Extends

theorem extends_place (scheduler : Scheduler K) (gained : SegmentLocality K)
    (candidate : Candidate K) (report : Report) :
    Extends gained [candidate] scheduler (scheduler.place gained candidate report).2 := by
  by_cases htakes : scheduler.Takes gained candidate
  · rw [place_of_takes htakes]
    refine ⟨rfl, rfl, rfl, rfl, ⟨[_], rfl, fun arming hmem => ?_⟩, fun timer hmem => ?_⟩
    · rw [List.mem_singleton.mp hmem]
      exact htakes.gained
    · rcases List.mem_append.mp hmem with hold | hnew
      · exact Or.inl hold
      · rw [List.mem_singleton.mp hnew]
        exact Or.inr List.mem_cons_self
  · obtain ⟨metrics, hcancelled, h⟩ := place_of_not_takes htakes report
    rw [h]
    exact ⟨rfl, rfl, rfl, hcancelled, ⟨[], (List.append_nil _).symm, by simp⟩,
      fun timer hmem => Or.inl hmem⟩

theorem extends_placeAll (scheduler : Scheduler K) (gained : SegmentLocality K)
    (candidates : List (Candidate K)) (report : Report) :
    Extends gained candidates scheduler
      (scheduler.placeAll gained (candidates.map .ok) none report).2 := by
  induction candidates generalizing scheduler report with
  | nil => exact .refl gained scheduler
  | cons candidate rest ih =>
      have hfirst := scheduler.extends_place gained candidate report
      exact hfirst.trans (ih _ _)

/-- A candidate is not taken once it was offered. -/
theorem not_takes_place (scheduler : Scheduler K) (gained : SegmentLocality K)
    (candidate : Candidate K) (report : Report) :
    ¬ (scheduler.place gained candidate report).2.Takes gained candidate := by
  intro hagain
  have htakes := (scheduler.extends_place gained candidate report).takes hagain
  rw [place_of_takes htakes] at hagain
  have harmed : (scheduler.arm candidate.id candidate.deadline).contains candidate.id = true :=
    contains_eq_true.mpr ⟨_, List.mem_append_right _ (List.mem_singleton.mpr rfl), rfl⟩
  exact absurd (harmed.symm.trans hagain.free) Bool.noConfusion

theorem not_takes_placeAll (scheduler : Scheduler K) (gained : SegmentLocality K)
    (candidates : List (Candidate K)) (report : Report) :
    ∀ candidate ∈ candidates,
      ¬ (scheduler.placeAll gained (candidates.map .ok) none report).2.Takes gained candidate := by
  induction candidates generalizing scheduler report with
  | nil => exact List.forall_mem_nil _
  | cons first rest ih =>
      intro candidate hmem
      rcases List.mem_cons.mp hmem with rfl | hrest
      · intro hagain
        have hplaced := (extends_placeAll _ gained rest _).takes hagain
        exact scheduler.not_takes_place gained candidate report hplaced
      · exact ih _ _ candidate hrest

/-- Candidates of which none is taken leave a scheduler as it is, but for its counters. -/
theorem alike_placeAll (candidates : List (Candidate K))
    (hleft : ∀ candidate ∈ candidates, ¬ scheduler.Takes gained candidate) (report : Report) :
    (scheduler.placeAll gained (candidates.map .ok) none report).2.Alike scheduler := by
  induction candidates generalizing scheduler report with
  | nil => exact .refl scheduler
  | cons candidate rest ih =>
      obtain ⟨metrics, -, h⟩ := place_of_not_takes (hleft candidate List.mem_cons_self) report
      have hextends := scheduler.extends_place gained candidate report
      have hplaced : (scheduler.place gained candidate report).2.Alike scheduler := by
        rw [h]
        exact ⟨rfl, rfl, rfl⟩
      have hrest := ih (fun later hlater htakes =>
        hleft later (List.mem_cons_of_mem _ hlater) (hextends.takes htakes))
        (scheduler.place gained candidate report).1
      exact hrest.trans hplaced

namespace Alike

variable {first second : Scheduler K}

theorem takes (halike : first.Alike second) (htakes : first.Takes gained candidate) :
    second.Takes gained candidate :=
  ⟨halike.closed ▸ htakes.isOpen, htakes.gained, halike.gate ▸ htakes.owned,
    (halike.contains candidate.id).symm.trans htakes.free⟩

theorem place (halike : first.Alike second) (report report' : Report) :
    (first.place gained candidate report).2.Alike (second.place gained candidate report').2 := by
  by_cases htakes : first.Takes gained candidate
  · rw [place_of_takes htakes, place_of_takes (halike.takes htakes)]
    refine ⟨halike.gate, halike.closed, ?_⟩
    have hentries := halike.entries
    simp only [Scheduler.entries, arm, List.map_append] at hentries ⊢
    rw [hentries]
    rfl
  · obtain ⟨metrics, -, h⟩ := place_of_not_takes htakes report
    obtain ⟨metrics', -, h'⟩ := place_of_not_takes
      (fun htaken => htakes (halike.symm.takes htaken)) report'
    rw [h, h']
    exact ⟨halike.gate, halike.closed, halike.entries⟩

/-- The same candidates are taken by schedulers that are alike. -/
theorem placeAll (halike : first.Alike second) (candidates : List (Candidate K))
    (report report' : Report) :
    (first.placeAll gained (candidates.map .ok) none report).2.Alike
      (second.placeAll gained (candidates.map .ok) none report').2 := by
  induction candidates generalizing first second report report' with
  | nil => exact halike
  | cons candidate rest ih => exact ih (halike.place report report') _ _

end Alike

instance instDecidableTakes : Decidable (scheduler.Takes gained candidate) :=
  decidable_of_iff (scheduler.closed = false ∧ gained.owns candidate.id = true ∧
      scheduler.gate.locality.owns candidate.id = true ∧
      scheduler.contains candidate.id = false)
    ⟨fun ⟨isOpen, gained, owned, free⟩ => ⟨isOpen, gained, owned, free⟩,
      fun ⟨isOpen, gained, owned, free⟩ => ⟨isOpen, gained, owned, free⟩⟩

/-- The candidates that are taken when they are offered one after the other: for each entry the first
of those that the scheduler takes now. -/
def takings (scheduler : Scheduler K) (gained : SegmentLocality K)
    (candidates : List (Candidate K)) : List (Candidate K) :=
  (candidates.filter fun candidate => scheduler.Takes gained candidate).eraseDupsBy
    fun later first => later.id = first.id

/-- Once a candidate is armed, the others are taken as before but for those of the same entry. -/
theorem takes_arm {id : K} {deadline : Instant} :
    (scheduler.arm id deadline).Takes gained candidate ↔
      scheduler.Takes gained candidate ∧ candidate.id ≠ id := by
  have hcontains : (scheduler.arm id deadline).contains candidate.id = false ↔
      scheduler.contains candidate.id = false ∧ candidate.id ≠ id := by
    rw [← Bool.not_eq_true, ← Bool.not_eq_true, contains_eq_true, contains_eq_true]
    simp only [arm, List.mem_append, List.mem_singleton]
    constructor
    · intro hfree
      exact ⟨fun ⟨arming, hmem, hid⟩ => hfree ⟨arming, Or.inl hmem, hid⟩,
        fun hsame => hfree ⟨_, Or.inr rfl, hsame.symm⟩⟩
    · rintro ⟨hfree, hother⟩ ⟨arming, hmem | rfl, hid⟩
      · exact hfree ⟨arming, hmem, hid⟩
      · exact hother hid.symm
  constructor
  · rintro ⟨hopen, hgained, howned, hfree⟩
    obtain ⟨hbefore, hother⟩ := hcontains.mp hfree
    exact ⟨⟨hopen, hgained, howned, hbefore⟩, hother⟩
  · rintro ⟨⟨hopen, hgained, howned, hfree⟩, hother⟩
    exact ⟨hopen, hgained, howned, hcontains.mpr ⟨hfree, hother⟩⟩

theorem takings_cons_of_takes (htakes : scheduler.Takes gained candidate)
    (rest : List (Candidate K)) :
    scheduler.takings gained (candidate :: rest) =
      candidate :: (scheduler.arm candidate.id candidate.deadline).takings gained rest := by
  have hfirst : decide (scheduler.Takes gained candidate) = true := decide_eq_true htakes
  rw [takings, takings, List.filter_cons, if_pos hfirst, List.eraseDupsBy_cons, List.filter_filter]
  congr 2
  refine List.filter_congr fun other _ => ?_
  rw [Bool.eq_iff_iff]
  simp [takes_arm, and_comm]

theorem takings_cons_of_not_takes (hleft : ¬ scheduler.Takes gained candidate)
    (rest : List (Candidate K)) :
    scheduler.takings gained (candidate :: rest) = scheduler.takings gained rest := by
  rw [takings, List.filter_cons_of_neg (by simpa using hleft), takings]

/-- Schedulers that are alike take the same candidates. -/
theorem Alike.takings_eq {first second : Scheduler K} (halike : first.Alike second)
    (gained : SegmentLocality K) (candidates : List (Candidate K)) :
    first.takings gained candidates = second.takings gained candidates := by
  rw [takings, takings]
  congr 1
  exact List.filter_congr fun candidate _ =>
    decide_eq_decide.mpr ⟨halike.takes, halike.symm.takes⟩

theorem length_takings_le (scheduler : Scheduler K) (gained : SegmentLocality K)
    (candidates : List (Candidate K)) :
    (scheduler.takings gained candidates).length ≤ candidates.length := by
  induction candidates generalizing scheduler with
  | nil => exact Nat.le_refl 0
  | cons candidate rest ih =>
      by_cases htakes : scheduler.Takes gained candidate
      · rw [takings_cons_of_takes htakes]
        exact Nat.succ_le_succ (ih _)
      · rw [takings_cons_of_not_takes htakes]
        exact Nat.le_succ_of_le (ih _)

/-- Offering candidates arms those that are taken, in their order, behind what was armed before, with a
timer for each, and counts them; the others are skipped. -/
theorem placeAll_eq (scheduler : Scheduler K) (gained : SegmentLocality K)
    (candidates : List (Candidate K)) (report : Report) :
    ∃ after added, scheduler.placeAll gained (candidates.map .ok) none report =
        (.ok { report with
          visited := report.visited + UInt64.ofNat candidates.length
          armed := report.armed + UInt64.ofNat (scheduler.takings gained candidates).length
          skipped := report.skipped +
            UInt64.ofNat (candidates.length - (scheduler.takings gained candidates).length) },
          after) ∧
      after.armed = scheduler.armed ++ added ∧
      after.timers = scheduler.timers ++ added.map (⟨·, false⟩) ∧
      added.map Arming.candidate = scheduler.takings gained candidates := by
  induction candidates generalizing scheduler report with
  | nil =>
      exact ⟨scheduler, [], by simp [placeAll, takings], (List.append_nil _).symm,
        (List.append_nil _).symm, rfl⟩
  | cons candidate rest ih =>
      have hmore : ∀ (number : UInt64) (count : Nat),
          number + 1 + UInt64.ofNat count = number + UInt64.ofNat (count + 1) := by
        intro number count
        rw [UInt64.ofNat_add, UInt64.add_assoc, UInt64.add_comm 1]
        rfl
      rw [List.map_cons, placeAll, if_neg nofun]
      dsimp only
      by_cases htakes : scheduler.Takes gained candidate
      · obtain ⟨after, added, hplaced, harmed, htimers, hadded⟩ :=
          ih (scheduler.arm candidate.id candidate.deadline)
            { report with visited := report.visited + 1, armed := report.armed + 1 }
        rw [place_of_takes htakes, takings_cons_of_takes htakes]
        refine ⟨after, ⟨candidate.id, candidate.deadline, scheduler.generation + 1⟩ :: added, ?_,
          harmed.trans (List.append_assoc _ [_] _), htimers.trans (List.append_assoc _ [_] _),
          congrArg (candidate :: ·) hadded⟩
        simp only [Option.map_none, hplaced, hmore, List.length_cons, Nat.add_sub_add_right]
      · obtain ⟨metrics, -, h⟩ := place_of_not_takes htakes report
        obtain ⟨after, added, hplaced, harmed, htimers, hadded⟩ :=
          ih { scheduler with metrics := metrics }
            { report with visited := report.visited + 1, skipped := report.skipped + 1 }
        have halike : Alike { scheduler with metrics := metrics } scheduler := ⟨rfl, rfl, rfl⟩
        have hskipped := Nat.succ_sub (length_takings_le scheduler gained rest)
        rw [halike.takings_eq] at hplaced hadded
        rw [h, takings_cons_of_not_takes htakes]
        refine ⟨after, added, ?_, harmed, htimers, hadded⟩
        simp only [Nat.succ_eq_add_one] at hskipped
        simp only [Option.map_none, hplaced, hmore, List.length_cons, hskipped]

/-- Candidates for different entries that are all taken now are all taken one after the other. -/
theorem takings_eq_self (candidates : List (Candidate K))
    (htakes : ∀ candidate ∈ candidates, scheduler.Takes gained candidate)
    (hdistinct : (candidates.map (·.id)).Nodup) :
    scheduler.takings gained candidates = candidates := by
  induction candidates generalizing scheduler with
  | nil => rfl
  | cons candidate rest ih =>
      obtain ⟨hapart, hrest⟩ := List.nodup_cons.mp hdistinct
      rw [takings_cons_of_takes (htakes candidate List.mem_cons_self), ih _ hrest]
      intro other hmem
      refine takes_arm.mpr ⟨htakes other (List.mem_cons_of_mem _ hmem), fun hsame => hapart ?_⟩
      exact List.mem_map.mpr ⟨other, hmem, hsame⟩

/-- Candidates that are all taken are all armed, in their order, behind what was armed before. -/
theorem placeAll_of_takes (candidates : List (Candidate K))
    (htakes : ∀ candidate ∈ candidates, scheduler.Takes gained candidate)
    (hdistinct : (candidates.map (·.id)).Nodup) (report : Report) :
    ∃ after added, scheduler.placeAll gained (candidates.map .ok) none report =
        (.ok { report with
          visited := report.visited + UInt64.ofNat candidates.length
          armed := report.armed + UInt64.ofNat candidates.length }, after) ∧
      after.armed = scheduler.armed ++ added ∧ added.map Arming.candidate = candidates := by
  obtain ⟨after, added, hplaced, harmed, -, hadded⟩ :=
    placeAll_eq scheduler gained candidates report
  rw [takings_eq_self candidates htakes hdistinct] at hplaced hadded
  have hskipped : report.skipped + UInt64.ofNat 0 = report.skipped := UInt64.add_zero _
  rw [Nat.sub_self, hskipped] at hplaced
  exact ⟨after, added, hplaced, harmed, hadded⟩

/-- Firing changes neither clock nor timers, and closes nothing. -/
theorem foldl_fire_frame (timers : List (Timer K)) (scheduler : Scheduler K) :
    (timers.foldl fire scheduler).now = scheduler.now ∧
      (timers.foldl fire scheduler).timers = scheduler.timers ∧
      (timers.foldl fire scheduler).closed = scheduler.closed := by
  induction timers generalizing scheduler with
  | nil => exact ⟨rfl, rfl, rfl⟩
  | cons timer rest ih =>
      obtain ⟨hnow, htimers, hclosed⟩ := ih (scheduler.fire timer)
      have hfire : (scheduler.fire timer).now = scheduler.now ∧
          (scheduler.fire timer).timers = scheduler.timers ∧
          (scheduler.fire timer).closed = scheduler.closed := by
        rcases scheduler.fire_cases timer with ⟨-, h⟩ | ⟨-, h⟩
        · rw [h]
          exact ⟨rfl, rfl, rfl⟩
        · rw [h]
          exact ⟨rfl, rfl, rfl⟩
      exact ⟨hnow.trans hfire.1, htimers.trans hfire.2.1, hclosed.trans hfire.2.2⟩

@[simp] theorem now_fireDue (scheduler : Scheduler K) : scheduler.fireDue.now = scheduler.now :=
  (foldl_fire_frame _ scheduler).1

@[simp] theorem closed_fireDue (scheduler : Scheduler K) :
    scheduler.fireDue.closed = scheduler.closed :=
  (foldl_fire_frame _ scheduler).2.2

/-- At rest every timer is still to come. -/
theorem timersAhead_fireDue (scheduler : Scheduler K) : scheduler.fireDue.TimersAhead := by
  intro timer hmem
  obtain ⟨hnow, htimers, -⟩ := foldl_fire_frame (scheduler.timers.filter fun timer =>
    !timer.stopped && timer.arming.deadline ≤ scheduler.now) scheduler
  have hkept := (List.mem_filter.mp hmem).2
  rw [Bool.and_eq_true, decide_eq_true_eq] at hkept
  exact hkept.2

omit [DecidableEq K] in
/-- No timer is due while all are still to come. -/
theorem TimersAhead.none_due (hahead : scheduler.TimersAhead) :
    (scheduler.timers.filter fun timer =>
      !timer.stopped && timer.arming.deadline ≤ scheduler.now) = [] := by
  apply List.filter_eq_nil_iff.mpr
  intro timer hmem hdue
  rw [Bool.and_eq_true, decide_eq_true_eq] at hdue
  exact absurd hdue.2 (Nat.not_le.mpr (hahead timer hmem))

/-- A scheduler whose timers are all still to come is at rest but for the timers it drops. -/
theorem TimersAhead.fireDue_eq (hahead : scheduler.TimersAhead) :
    scheduler.fireDue = { scheduler with
      timers := scheduler.timers.filter fun timer =>
        !timer.stopped && scheduler.now < timer.arming.deadline } := by
  dsimp only [fireDue]
  rw [hahead.none_due]
  rfl

/-- It is at rest altogether when no timer was stopped. -/
theorem TimersAhead.fireDue_of_running (hahead : scheduler.TimersAhead)
    (hrunning : ∀ timer ∈ scheduler.timers, timer.stopped = false) :
    scheduler.fireDue = scheduler := by
  have hall : (scheduler.timers.filter fun timer =>
      !timer.stopped && scheduler.now < timer.arming.deadline) = scheduler.timers := by
    apply List.filter_eq_self.mpr
    intro timer hmem
    rw [hrunning timer hmem, decide_eq_true (hahead timer hmem)]
    rfl
  rw [hahead.fireDue_eq, hall]

theorem TimersAhead.alike_fireDue (hahead : scheduler.TimersAhead) :
    scheduler.fireDue.Alike scheduler := by
  rw [hahead.fireDue_eq]
  exact ⟨rfl, rfl, rfl⟩

omit [DecidableEq K] in
theorem TimersAhead.install (hahead : scheduler.TimersAhead) (topology : TopologyId)
    (locality : Locality K) : (scheduler.install topology locality).2.TimersAhead := by
  rcases scheduler.install_cases topology locality with ⟨newer, -, -, h⟩ | ⟨-, h⟩
  · rw [h]
    exact hahead
  · rw [h]
    exact hahead

omit [DecidableEq K] in
theorem TimersAhead.disarm (hahead : scheduler.TimersAhead) (leaves : Arming K → Bool) :
    (scheduler.disarm leaves).2.TimersAhead := by
  intro timer hmem
  obtain ⟨before, hbefore, rfl⟩ := List.mem_map.mp hmem
  split
  · exact hahead before hbefore
  · exact hahead before hbefore

omit [DecidableEq K] in
theorem TimersAhead.cancelUnowned (hahead : scheduler.TimersAhead) (topology : TopologyId)
    (locality : Locality K) : (scheduler.cancelUnowned topology locality).2.TimersAhead := by
  rcases scheduler.cancelUnowned_cases topology locality with ⟨newer, -, -, h⟩ | ⟨-, h⟩
  · rw [h]
    exact hahead
  · rw [h]
    have hinstalled : TimersAhead { scheduler with gate := ⟨some topology, locality⟩ } := hahead
    exact hinstalled.disarm _

omit [DecidableEq K] in
theorem Extends.timersAhead {before after : Scheduler K} {offered : List (Candidate K)}
    (hextends : Extends gained offered before after) (hahead : before.TimersAhead)
    (hoffered : ∀ candidate ∈ offered, before.now < candidate.deadline) : after.TimersAhead := by
  intro timer hmem
  rw [hextends.now]
  rcases hextends.timers timer hmem with hold | hnew
  · exact hahead timer hold
  · exact hoffered _ hnew

end Scheduler

end Custody
