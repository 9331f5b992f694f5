/-
# Every arming ends once

A scheduler is given commands in bursts and comes to rest after each of them.  Then the accounts are
in order whatever the commands were, and they say when each arming ends: it fires at the first rest
at which its own deadline has been reached, unless it was cancelled before; and once the scheduler is
shut down, or is no more, nothing is left that could fire.
-/

import Mathlib.Data.List.Induction
import Custody.Proofs.Scheduler.Accounts

namespace Custody

namespace Scheduler

variable {K : Type} [DecidableEq K]

/-- How often an entry was armed. -/
def armCount (scheduler : Scheduler K) (id : K) : Nat := (scheduler.armings.map (·.id)).count id

/-- How often an entry was cancelled, by itself or with others. -/
def cancelCount (scheduler : Scheduler K) (id : K) : Nat :=
  (scheduler.cancellations.map (·.id)).count id

theorem runBursts_append (scheduler : Scheduler K)
    (first second : List (List (SchedulerCommand K))) :
    scheduler.runBursts (first ++ second) = (scheduler.runBursts first).runBursts second :=
  List.foldl_append

/-- A session that rests after each command is one whose bursts are single commands. -/
theorem run_eq_runBursts (commands : List (SchedulerCommand K)) (scheduler : Scheduler K) :
    scheduler.run commands = scheduler.runBursts (commands.map fun command => [command]) := by
  induction commands generalizing scheduler with
  | nil => rfl
  | cons command commands ih => exact ih _

/-- Commands in a row come down to changes. -/
theorem changes_foldl_perform (commands : List (SchedulerCommand K)) (scheduler : Scheduler K) :
    scheduler.Changes
      (commands.foldl (fun scheduler command => (scheduler.perform command).2) scheduler) := by
  induction commands generalizing scheduler with
  | nil => exact .refl scheduler
  | cons command commands ih => exact (Changes.perform scheduler command).trans (ih _)

theorem Accounted.burst {scheduler : Scheduler K} (haccounted : scheduler.Accounted)
    (commands : List (SchedulerCommand K)) : (scheduler.burst commands).Accounted :=
  ((changes_foldl_perform commands scheduler).accounted haccounted).fireDue

theorem Accounted.runBursts {scheduler : Scheduler K} (haccounted : scheduler.Accounted)
    (bursts : List (List (SchedulerCommand K))) : (scheduler.runBursts bursts).Accounted := by
  induction bursts generalizing scheduler with
  | nil => exact haccounted
  | cons burst bursts ih => exact ih (haccounted.burst burst)

/-- A burst only adds to the journal. -/
theorem Accounted.journal_suffix_burst {scheduler : Scheduler K} (haccounted : scheduler.Accounted)
    (commands : List (SchedulerCommand K)) :
    scheduler.journal <:+ (scheduler.burst commands).journal := by
  have hchanges := changes_foldl_perform commands scheduler
  obtain ⟨metrics, hrest⟩ := (hchanges.accounted haccounted).fireDue_eq
  rw [Scheduler.burst, hrest]
  exact hchanges.journal_suffix.trans (List.suffix_append _ _)

/-- Bursts only add to the journal. -/
theorem Accounted.journal_suffix_runBursts {scheduler : Scheduler K}
    (haccounted : scheduler.Accounted) (bursts : List (List (SchedulerCommand K))) :
    scheduler.journal <:+ (scheduler.runBursts bursts).journal := by
  induction bursts generalizing scheduler with
  | nil => exact List.suffix_rfl
  | cons burst bursts ih =>
      exact (haccounted.journal_suffix_burst burst).trans (ih (haccounted.burst burst))

omit [DecidableEq K] in
/-- What a longer journal has seen includes what a shorter one has. -/
theorem subset_of_journal_suffix {before after : Scheduler K}
    (hsuffix : before.journal <:+ after.journal) :
    before.fires ⊆ after.fires ∧ before.cancellations ⊆ after.cancellations :=
  ⟨(hsuffix.filterMap _).subset, (hsuffix.filterMap _).subset⟩

/-- The entries that have fired are those of the armings that have. -/
theorem fireCount_eq (scheduler : Scheduler K) (id : K) :
    scheduler.fireCount id = ((scheduler.fires.map (·.1)).map (·.id)).count id := by
  have hfired : scheduler.fired = ((scheduler.fires.map (·.1)).map (·.id)).reverse := by
    rw [fired, fires, List.map_map, List.map_filterMap, List.filterMap_reverse]
    congr 2
    funext entry
    cases entry <;> rfl
  rw [fireCount, hfired, List.count_reverse]

/-- Every time an entry was armed is accounted for. -/
theorem Accounted.armCount_eq {scheduler : Scheduler K} (haccounted : scheduler.Accounted) (id : K) :
    scheduler.armCount id = scheduler.fireCount id + scheduler.cancelCount id +
      (if scheduler.contains id then 1 else 0) := by
  have hcount := (haccounted.ends.map (·.id)).count_eq id
  rw [List.map_append, List.map_append, List.count_append, List.count_append,
    ← fireCount_eq] at hcount
  have harmed : (scheduler.armed.map (·.id)).count id =
      if scheduler.contains id then 1 else 0 := by
    by_cases hcontains : scheduler.contains id = true
    · rw [if_pos hcontains]
      refine List.count_eq_one_of_mem haccounted.distinct ?_
      obtain ⟨arming, hmem, rfl⟩ := contains_eq_true.mp hcontains
      exact List.mem_map_of_mem hmem
    · rw [if_neg hcontains]
      refine List.count_eq_zero.mpr fun hmem => hcontains ?_
      obtain ⟨arming, hmem, hsame⟩ := List.mem_map.mp hmem
      exact contains_eq_true.mpr ⟨arming, hmem, hsame⟩
  rw [armCount, hcount, harmed, cancelCount, Nat.add_assoc]

/-- At every rest of a scheduler that begins anew, no deadline has been reached. -/
theorem pending_runBursts (now : Instant) (bursts : List (List (SchedulerCommand K)))
    {arming : Arming K} (hmem : arming ∈ ((new now).runBursts bursts).armed) :
    ((new now).runBursts bursts).now < arming.deadline := by
  induction bursts using List.reverseRecOn with
  | nil => nomatch hmem
  | append_singleton bursts last _ =>
      rw [runBursts_append] at hmem ⊢
      have haccounted := (accounted_new now).runBursts bursts
      exact ((changes_foldl_perform last _).accounted haccounted).pending_fireDue hmem

/-- At every rest the timers are those of the armed entries. -/
theorem timed_runBursts (now : Instant) (bursts : List (List (SchedulerCommand K))) :
    ((new now).runBursts bursts).Timed := by
  induction bursts using List.reverseRecOn with
  | nil => rfl
  | append_singleton bursts last _ =>
      rw [runBursts_append]
      have haccounted := (accounted_new now).runBursts bursts
      exact ((changes_foldl_perform last _).accounted haccounted).timed_fireDue

/-- Whether an arming fires at the end of one burst of a sequence: at the first rest at which its
deadline has been reached. -/
def FiresAfter (now : Instant) (before : List (List (SchedulerCommand K)))
    (burst : List (SchedulerCommand K)) (arming : Arming K) (instant : Instant) : Prop :=
  instant = ((new now).runBursts (before ++ [burst])).now ∧ arming.deadline ≤ instant ∧
    (arming, instant) ∈ ((new now).runBursts (before ++ [burst])).fires ∧
    ∀ earlier, earlier <+: before →
      (∀ other, (arming, other) ∉ ((new now).runBursts earlier).fires) ∧
      (arming ∈ ((new now).runBursts earlier).armings →
        ((new now).runBursts earlier).now < arming.deadline)

/-- Whatever fires when a scheduler comes to rest was pending at every rest before. -/
theorem firesAfter_of_due (now : Instant) (before : List (List (SchedulerCommand K)))
    (burst : List (SchedulerCommand K)) {due : Scheduler K}
    (hdue : burst.foldl (fun scheduler command => (scheduler.perform command).2)
      ((new now).runBursts before) = due)
    {arming : Arming K} (harmed : arming ∈ due.armed) (hreached : arming.deadline ≤ due.now) :
    FiresAfter now before burst arming due.now := by
  have hchanges := changes_foldl_perform burst ((new now).runBursts before)
  rw [hdue] at hchanges
  have haccounted := hchanges.accounted ((accounted_new now).runBursts before)
  have hrests : (new now).runBursts (before ++ [burst]) = due.fireDue := by
    rw [runBursts_append, ← hdue]
    rfl
  have hnow : due.fireDue.now = due.now := by
    obtain ⟨metrics, hrest⟩ := haccounted.fireDue_eq
    rw [hrest]
  rw [FiresAfter, hrests, hnow, haccounted.fires_fireDue]
  refine ⟨rfl, hreached, ?_, fun earlier hprefix => ?_⟩
  · refine List.mem_append_left _ (List.mem_reverse.mpr (List.mem_map.mpr ⟨arming, ?_, rfl⟩))
    exact List.mem_filter.mpr ⟨harmed, decide_eq_true hreached⟩
  · obtain ⟨rest, rfl⟩ := hprefix
    have hearlier := (accounted_new now).runBursts earlier
    have hsuffix := hearlier.journal_suffix_runBursts rest
    rw [← runBursts_append] at hsuffix
    obtain ⟨hfires, hcancellations⟩ :=
      subset_of_journal_suffix (hsuffix.trans hchanges.journal_suffix)
    have hunfired : ∀ other, (arming, other) ∉ ((new now).runBursts earlier).fires :=
      fun other hfired => (haccounted.fired_apart (hfires hfired)).2 harmed
    refine ⟨hunfired, fun hmem => ?_⟩
    -- An arming that is there in the end has been there all along, since what has ended stays so.
    rcases List.mem_append.mp (hearlier.ends.mem_iff.mp hmem) with hfired | hleft
    · obtain ⟨⟨_, other⟩, hfire, rfl⟩ := List.mem_map.mp hfired
      exact absurd hfire (hunfired other)
    · rcases List.mem_append.mp hleft with hcancelled | hpending
      · exact absurd harmed (haccounted.cancelled_apart (hcancellations hcancelled))
      · exact pending_runBursts now earlier hpending

/-- Every fire is on time. -/
theorem firesAfter_of_mem_fires (now : Instant) (bursts : List (List (SchedulerCommand K)))
    {arming : Arming K} {instant : Instant}
    (hfired : (arming, instant) ∈ ((new now).runBursts bursts).fires) :
    ∃ before burst after, bursts = before ++ burst :: after ∧
      FiresAfter now before burst arming instant := by
  induction bursts using List.reverseRecOn with
  | nil => nomatch hfired
  | append_singleton bursts last ih =>
      have hchanges := changes_foldl_perform last ((new now).runBursts bursts)
      have haccounted := hchanges.accounted ((accounted_new now).runBursts bursts)
      rw [runBursts_append] at hfired
      change _ ∈ Scheduler.fires (fireDue _) at hfired
      rw [haccounted.fires_fireDue, hchanges.fires_eq] at hfired
      rcases List.mem_append.mp hfired with hnow | hbefore
      · obtain ⟨due, hmem, hsame⟩ := List.mem_map.mp (List.mem_reverse.mp hnow)
        obtain ⟨rfl, rfl⟩ := Prod.mk.inj hsame
        obtain ⟨harmed, hreached⟩ := List.mem_filter.mp hmem
        exact ⟨bursts, last, [], rfl,
          firesAfter_of_due now bursts last rfl harmed (of_decide_eq_true hreached)⟩
      · obtain ⟨before, burst, after, rfl, hfires⟩ := ih hbefore
        exact ⟨before, burst, after ++ [last], by simp, hfires⟩

/-- Whether all that is left to happen is that the clock moves. -/
def OnlyAdvances (commands : List (SchedulerCommand K)) : Prop :=
  ∀ command ∈ commands, ∃ elapsed, command = .advance elapsed

/-- Nothing is armed, and nothing will be. -/
structure Over (scheduler : Scheduler K) (later : List (SchedulerCommand K)) : Prop where
  armed : scheduler.armed = []
  deaf : scheduler.closed = true ∨ OnlyAdvances later

/-- A command to a scheduler that is over leaves it over. -/
theorem Over.perform {scheduler : Scheduler K} {command : SchedulerCommand K}
    {later : List (SchedulerCommand K)} (hover : scheduler.Over (command :: later)) :
    (scheduler.perform command).2.Over later := by
  rcases hover.deaf with hclosed | honly
  · obtain ⟨hstill, hsubset⟩ := (Changes.perform scheduler command).shut hclosed
    rw [hover.armed] at hsubset
    exact ⟨List.subset_nil.mp hsubset, Or.inl hstill⟩
  · obtain ⟨elapsed, rfl⟩ := honly command List.mem_cons_self
    exact ⟨hover.armed, Or.inr fun other hmem => honly other (List.mem_cons_of_mem _ hmem)⟩

theorem Over.foldl_perform {commands later : List (SchedulerCommand K)} {scheduler : Scheduler K}
    (hover : scheduler.Over (commands ++ later)) :
    (commands.foldl (fun scheduler command => (scheduler.perform command).2) scheduler).Over
      later := by
  induction commands generalizing scheduler with
  | nil => exact hover
  | cons command commands ih => exact ih hover.perform

/-- A scheduler that is over fires nothing when it comes to rest. -/
theorem Over.fireDue {scheduler : Scheduler K} {later : List (SchedulerCommand K)}
    (haccounted : scheduler.Accounted) (hover : scheduler.Over later) :
    scheduler.fireDue.Over later ∧ scheduler.fireDue.fires = scheduler.fires := by
  have hfires := haccounted.fires_fireDue
  rw [hover.armed] at hfires
  obtain ⟨metrics, hrest⟩ := haccounted.fireDue_eq
  refine ⟨⟨?_, ?_⟩, hfires⟩
  · rw [hrest, hover.armed]
    rfl
  · rw [hrest]
    exact hover.deaf

/-- A scheduler that is over arms and fires nothing any more. -/
theorem Over.runBursts {scheduler : Scheduler K} (haccounted : scheduler.Accounted)
    {bursts : List (List (SchedulerCommand K))} (hover : scheduler.Over bursts.flatten) :
    (scheduler.runBursts bursts).armed = [] ∧
      (scheduler.runBursts bursts).fires = scheduler.fires := by
  induction bursts generalizing scheduler with
  | nil => exact ⟨hover.armed, rfl⟩
  | cons burst bursts ih =>
      have hchanges := changes_foldl_perform burst scheduler
      have hafter := hchanges.accounted haccounted
      obtain ⟨hrest, hfires⟩ := (hover.foldl_perform).fireDue hafter
      obtain ⟨harmed, hsame⟩ := ih (haccounted.burst burst) hrest
      exact ⟨harmed, hsame.trans (hfires.trans hchanges.fires_eq)⟩

/-- A scheduler is over when it was shut down, or when it is no more and only the clock moves on. -/
theorem over_of_ending (scheduler : Scheduler K) {ending : SchedulerCommand K}
    {later : List (SchedulerCommand K)}
    (hending : ending = .shutdown ∨ ending = .drop ∧ OnlyAdvances later) :
    (scheduler.perform ending).2.Over later := by
  rcases hending with rfl | ⟨rfl, honly⟩
  · refine ⟨?_, Or.inl rfl⟩
    simp [Scheduler.perform, shutdown, disarm]
  · refine ⟨?_, Or.inr honly⟩
    simp [Scheduler.perform, drop, disarm]

/-- Once a scheduler is shut down, or is no more, nothing is armed at any rest, and nothing fires
that had not fired before. -/
theorem runBursts_of_ending (now : Instant) (before after : List (List (SchedulerCommand K)))
    (first second : List (SchedulerCommand K)) {ending : SchedulerCommand K}
    (hending : ending = .shutdown ∨ ending = .drop ∧ OnlyAdvances (second ++ after.flatten)) :
    ((new now).runBursts (before ++ (first ++ ending :: second) :: after)).armed = [] ∧
      ((new now).runBursts (before ++ (first ++ ending :: second) :: after)).fires =
        ((new now).runBursts before).fires := by
  have haccounted := (accounted_new now).runBursts before
  have hchanges := changes_foldl_perform (first ++ ending :: second) ((new now).runBursts before)
  have hover : ((first ++ ending :: second).foldl
      (fun scheduler command => (scheduler.perform command).2)
      ((new now).runBursts before)).Over after.flatten := by
    rw [List.foldl_append]
    exact (over_of_ending _ hending).foldl_perform
  obtain ⟨hrest, hfires⟩ := hover.fireDue (hchanges.accounted haccounted)
  obtain ⟨harmed, hsame⟩ := hrest.runBursts (haccounted.burst _)
  rw [runBursts_append]
  exact ⟨harmed, hsame.trans (hfires.trans hchanges.fires_eq)⟩

end Scheduler

end Custody
