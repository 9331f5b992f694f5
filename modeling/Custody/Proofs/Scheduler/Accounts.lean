/-
# The accounts of a scheduler

Whatever commands a scheduler is given, they come down to three changes: an entry is armed under a
new number, some armings are taken back and their timers stopped, and everything else happens beside
the armings.  These keep the scheduler accounted for: the timers that were not stopped are those of
the armed entries, one for one and in the same order; and what was ever armed is what has fired, what
was cancelled, and what is still armed, each arming in one place.

Coming to rest keeps the accounts too.  Since each live timer finds its arming in place, it takes away
exactly the armings that are due.
-/

import Mathlib.Data.List.Nodup
import Custody.Scheduler.Session
import Custody.Proofs.Scheduler.Operations

namespace Custody

namespace Scheduler

variable {K : Type}

/-- Every arming there has been, the latest first. -/
def armings (scheduler : Scheduler K) : List (Arming K) :=
  scheduler.journal.filterMap fun
    | .armed arming => some arming
    | _ => none

/-- Every arming that has fired, with the instant, the latest first. -/
def fires (scheduler : Scheduler K) : List (Arming K × Instant) :=
  scheduler.journal.filterMap fun
    | .fired arming instant => some (arming, instant)
    | _ => none

/-- Every arming that was cancelled, the latest first. -/
def cancellations (scheduler : Scheduler K) : List (Arming K) :=
  scheduler.journal.filterMap fun
    | .cancelled arming => some arming
    | _ => none

/-- A scheduler whose timers and journal agree with what is armed. -/
structure Accounted (scheduler : Scheduler K) : Prop where
  /-- The live timers are those of the armed entries. -/
  matched : (scheduler.timers.filter fun timer => !timer.stopped).map (·.arming) = scheduler.armed
  /-- No entry is armed twice at once. -/
  distinct : (scheduler.armed.map (·.id)).Nodup
  /-- Every arming has fired, was cancelled, or is still there. -/
  ends : scheduler.armings.Perm
    (scheduler.fires.map (·.1) ++ (scheduler.cancellations ++ scheduler.armed))
  /-- No number was given twice. -/
  numbered : (scheduler.armings.map (·.generation)).Nodup
  /-- No number was given that is yet to come. -/
  past : ∀ arming ∈ scheduler.armings, arming.generation ≤ scheduler.generation

/-- Each armed entry has a timer of its own, which runs to its deadline, and there are no others. -/
def Timed (scheduler : Scheduler K) : Prop := scheduler.timers = scheduler.armed.map (⟨·, false⟩)

namespace Accounted

variable {scheduler : Scheduler K}

/-- What is armed was armed at some time. -/
theorem mem_armings (haccounted : scheduler.Accounted) {arming : Arming K}
    (harmed : arming ∈ scheduler.armed) : arming ∈ scheduler.armings :=
  haccounted.ends.mem_iff.mpr (List.mem_append_right _ (List.mem_append_right _ harmed))

/-- The armings have different numbers, wherever they are by now. -/
theorem numbered_ends (haccounted : scheduler.Accounted) :
    ((scheduler.fires.map (·.1) ++ (scheduler.cancellations ++ scheduler.armed)).map
      (·.generation)).Nodup :=
  (haccounted.ends.map _).nodup_iff.mp haccounted.numbered

/-- What has fired was not cancelled and is not armed. -/
theorem fired_apart (haccounted : scheduler.Accounted) {arming : Arming K} {instant : Instant}
    (hfired : (arming, instant) ∈ scheduler.fires) :
    arming ∉ scheduler.cancellations ∧ arming ∉ scheduler.armed := by
  have hends := haccounted.numbered_ends.of_map
  have hmem : arming ∈ scheduler.fires.map (·.1) := List.mem_map_of_mem hfired
  have hapart : arming ∉ scheduler.cancellations ++ scheduler.armed :=
    List.disjoint_of_nodup_append hends hmem
  rwa [List.mem_append, not_or] at hapart

/-- What was cancelled is not armed. -/
theorem cancelled_apart (haccounted : scheduler.Accounted) {arming : Arming K}
    (hcancelled : arming ∈ scheduler.cancellations) : arming ∉ scheduler.armed := by
  have hends := haccounted.numbered_ends.of_map
  exact List.disjoint_of_nodup_append hends.of_append_right hcancelled

/-- Two armings that are there under one number are the same. -/
theorem eq_of_generation (haccounted : scheduler.Accounted) {first second : Arming K}
    (hfirst : first ∈ scheduler.armed) (hsecond : second ∈ scheduler.armed)
    (hsame : first.generation = second.generation) : first = second :=
  List.inj_on_of_nodup_map haccounted.numbered (haccounted.mem_armings hfirst)
    (haccounted.mem_armings hsecond) hsame

/-- The armed entries are listed once each. -/
theorem nodup_armed (haccounted : scheduler.Accounted) : scheduler.armed.Nodup :=
  haccounted.distinct.of_map

end Accounted

/-- A new scheduler is accounted for. -/
theorem accounted_new (now : Instant) : (new now : Scheduler K).Accounted :=
  ⟨rfl, List.nodup_nil, .refl _, List.nodup_nil, fun _ hmem => nomatch hmem⟩

/-- Stopping some timers leaves the live ones among the others. -/
theorem live_stop (timers : List (Timer K)) (stops : Timer K → Bool) :
    ((timers.map fun timer => if stops timer then { timer with stopped := true } else timer).filter
        fun timer => !timer.stopped) =
      (timers.filter fun timer => !timer.stopped).filter fun timer => !stops timer := by
  induction timers with
  | nil => rfl
  | cons timer timers ih =>
      rw [List.map_cons, List.filter_cons, List.filter_cons, ih]
      by_cases hstops : stops timer = true
      · by_cases hlive : timer.stopped = true <;> simp [hstops, hlive]
      · by_cases hlive : timer.stopped = true <;> simp [hstops, hlive]

/-- The timers that stop are those of the armings that are taken back. -/
theorem Accounted.stops_eq {scheduler : Scheduler K} (haccounted : scheduler.Accounted)
    (leaves : Arming K → Bool) {timer : Timer K}
    (htimer : timer ∈ scheduler.timers.filter fun timer => !timer.stopped) :
    ((scheduler.armed.filter leaves).any fun arming =>
      arming.generation = timer.arming.generation) = leaves timer.arming := by
  have harmed : timer.arming ∈ scheduler.armed :=
    haccounted.matched ▸ List.mem_map_of_mem htimer
  rw [Bool.eq_iff_iff, List.any_eq_true]
  constructor
  · rintro ⟨arming, hmem, hsame⟩
    obtain ⟨hmem, hleaves⟩ := List.mem_filter.mp hmem
    rwa [haccounted.eq_of_generation harmed hmem (of_decide_eq_true hsame).symm]
  · intro hleaves
    exact ⟨timer.arming, List.mem_filter.mpr ⟨harmed, hleaves⟩, decide_eq_true rfl⟩

/-- Taking armings back arms nothing. -/
@[simp] theorem armings_disarm (scheduler : Scheduler K) (leaves : Arming K → Bool) :
    (scheduler.disarm leaves).2.armings = scheduler.armings := by
  simp [armings, disarm, List.filterMap_append, List.filterMap_map]

/-- Taking armings back fires nothing. -/
@[simp] theorem fires_disarm (scheduler : Scheduler K) (leaves : Arming K → Bool) :
    (scheduler.disarm leaves).2.fires = scheduler.fires := by
  simp [fires, disarm, List.filterMap_append, List.filterMap_map]

/-- What is taken back is cancelled. -/
@[simp] theorem cancellations_disarm (scheduler : Scheduler K) (leaves : Arming K → Bool) :
    (scheduler.disarm leaves).2.cancellations =
      (scheduler.armed.filter leaves).reverse ++ scheduler.cancellations := by
  simp [cancellations, disarm, List.filterMap_append, List.filterMap_map]

/-- Taking armings back keeps a scheduler accounted for. -/
theorem Accounted.disarm {scheduler : Scheduler K} (haccounted : scheduler.Accounted)
    (leaves : Arming K → Bool) : (scheduler.disarm leaves).2.Accounted := by
  refine ⟨?_, haccounted.distinct.sublist (List.filter_sublist.map _), ?_, ?_, ?_⟩
  · calc ((scheduler.disarm leaves).2.timers.filter fun timer => !timer.stopped).map (·.arming)
        = ((scheduler.timers.filter fun timer => !timer.stopped).filter fun timer =>
            !(scheduler.armed.filter leaves).any fun arming =>
              arming.generation = timer.arming.generation).map (·.arming) :=
          congrArg _ (live_stop scheduler.timers _)
      _ = ((scheduler.timers.filter fun timer => !timer.stopped).filter fun timer =>
            !leaves timer.arming).map (·.arming) := by
          rw [List.filter_congr fun timer htimer => by rw [haccounted.stops_eq leaves htimer]]
      _ = ((scheduler.timers.filter fun timer => !timer.stopped).map (·.arming)).filter
            fun arming => !leaves arming := by
          rw [List.filter_map]
          rfl
      _ = scheduler.armed.filter fun arming => !leaves arming := by rw [haccounted.matched]
  · rw [armings_disarm, fires_disarm, cancellations_disarm]
    refine haccounted.ends.trans (List.Perm.append_left _ ?_)
    have hsplit : scheduler.armed.Perm
        (scheduler.armed.filter leaves ++ scheduler.armed.filter fun arming => !leaves arming) :=
      (List.filter_append_perm leaves scheduler.armed).symm
    have hmoved : (scheduler.cancellations ++ scheduler.armed.filter leaves).Perm
        ((scheduler.armed.filter leaves).reverse ++ scheduler.cancellations) :=
      List.perm_append_comm.trans ((List.reverse_perm _).symm.append_right _)
    refine (hsplit.append_left _).trans ?_
    rw [← List.append_assoc]
    exact hmoved.append_right _
  · rw [armings_disarm]
    exact haccounted.numbered
  · rw [armings_disarm]
    exact haccounted.past

variable [DecidableEq K]

/-- Arming a free entry keeps a scheduler accounted for. -/
theorem Accounted.arm {scheduler : Scheduler K} (haccounted : scheduler.Accounted) {id : K}
    (hfree : scheduler.contains id = false) (deadline : Instant) :
    (scheduler.arm id deadline).Accounted := by
  refine ⟨?_, ?_, ?_, ?_, ?_⟩
  · simp only [Scheduler.arm, List.filter_append, List.map_append, haccounted.matched]
    rfl
  · have hnew : id ∉ scheduler.armed.map (·.id) := by simpa [contains] using hfree
    simp only [Scheduler.arm, List.map_append, List.map_cons, List.map_nil]
    exact List.nodup_append.mpr ⟨haccounted.distinct, List.pairwise_singleton _ _, by
      rintro other hmem _ hsame rfl
      exact hnew (List.mem_singleton.mp hsame ▸ hmem)⟩
  · show (⟨id, deadline, scheduler.generation + 1⟩ :: scheduler.armings).Perm _
    refine (haccounted.ends.cons _).trans ?_
    simp only [Scheduler.arm, fires, cancellations, List.filterMap_cons, ← List.append_assoc]
    exact (List.perm_append_singleton _ _).symm
  · refine List.nodup_cons.mpr ⟨fun hmem => ?_, haccounted.numbered⟩
    obtain ⟨arming, hold, hsame⟩ := List.mem_map.mp hmem
    have hpast := haccounted.past arming hold
    rw [hsame] at hpast
    exact Nat.not_succ_le_self _ hpast
  · intro arming hmem
    rcases List.mem_cons.mp hmem with rfl | hold
    · exact Nat.le_refl _
    · exact Nat.le_succ_of_le (haccounted.past arming hold)

/-- What commands do to the armings, one change after the other. -/
inductive Changes : Scheduler K → Scheduler K → Prop where
  /-- Nothing happens to the armings, and a scheduler that is shut down stays so. -/
  | beside {before after : Scheduler K} (harmed : after.armed = before.armed)
      (htimers : after.timers = before.timers) (hgeneration : after.generation = before.generation)
      (hjournal : after.journal = before.journal)
      (hclosed : before.closed = true → after.closed = true) : Changes before after
  /-- A free entry is armed. -/
  | arms {scheduler : Scheduler K} {id : K} (hopen : scheduler.closed = false)
      (hfree : scheduler.contains id = false) (deadline : Instant) :
      Changes scheduler (scheduler.arm id deadline)
  /-- Some armings are taken back. -/
  | disarms (scheduler : Scheduler K) (leaves : Arming K → Bool) :
      Changes scheduler (scheduler.disarm leaves).2
  /-- One change follows another. -/
  | trans {first second third : Scheduler K} (hfirst : Changes first second)
      (hsecond : Changes second third) : Changes first third

namespace Changes

/-- Nothing changes. -/
theorem refl (scheduler : Scheduler K) : scheduler.Changes scheduler :=
  .beside rfl rfl rfl rfl id

theorem schedule (scheduler : Scheduler K) (id : K) (deadline : Instant) :
    scheduler.Changes (scheduler.schedule id deadline).2 := by
  rcases schedule_cases scheduler id deadline with ⟨hopen, -, hfree, h⟩ | ⟨-, metrics, h⟩
  · rw [h]
    exact .arms hopen hfree deadline
  · rw [h]
    exact .beside rfl rfl rfl rfl fun hclosed => hclosed

theorem place (scheduler : Scheduler K) (gained : SegmentLocality K) (candidate : Candidate K)
    (report : Report) : scheduler.Changes (scheduler.place gained candidate report).2 := by
  rcases place_cases scheduler gained candidate report with ⟨-, h⟩ | ⟨-, h⟩
  · rw [h]
    exact .refl scheduler
  · rw [h]
    exact schedule scheduler _ _

/-- A pass changes the armings by what it offers, and stops somewhere. -/
theorem placeAll (gained : SegmentLocality K) (items : List (Item K)) (scheduler : Scheduler K)
    (untilCancelled : Option Nat) (report : Report) :
    scheduler.Changes (scheduler.placeAll gained items untilCancelled report).2 := by
  induction items generalizing scheduler untilCancelled report with
  | nil => exact .refl scheduler
  | cons item rest ih =>
      unfold Scheduler.placeAll
      split
      · exact .refl scheduler
      · cases item with
        | error failure => exact .refl scheduler
        | ok candidate => exact (place scheduler gained candidate report).trans (ih _ _ _)

theorem reconcile (scheduler : Scheduler K) (old new : SegmentLocality K)
    (source : SegmentLocality K → Except Error (List (Item K))) (untilCancelled : Option Nat) :
    scheduler.Changes (scheduler.reconcile old new source untilCancelled).2 := by
  unfold Scheduler.reconcile
  dsimp only
  split
  · exact .refl scheduler
  · split
    · exact .refl scheduler
    · exact placeAll _ _ scheduler _ _

/-- Installing a locality changes nothing about the armings. -/
theorem install (scheduler : Scheduler K) (topology : TopologyId) (locality : Locality K) :
    scheduler.Changes (scheduler.install topology locality).2 := by
  unfold Scheduler.install
  split
  · exact .refl scheduler
  · exact .beside rfl rfl rfl rfl fun hclosed => hclosed

theorem cancelUnowned (scheduler : Scheduler K) (topology : TopologyId) (locality : Locality K) :
    scheduler.Changes (scheduler.cancelUnowned topology locality).2 := by
  have hinstall := install scheduler topology locality
  unfold Scheduler.cancelUnowned
  split
  · next h => rwa [h] at hinstall
  · next h =>
      rw [h] at hinstall
      exact hinstall.trans (.disarms _ _)

/-- Every command comes down to changes. -/
theorem perform (scheduler : Scheduler K) (command : SchedulerCommand K) :
    scheduler.Changes (scheduler.perform command).2 := by
  cases command with
  | schedule id deadline => exact schedule scheduler id deadline
  | scheduleAfter id delay => exact schedule scheduler id _
  | cancel id =>
      rcases cancel_cases scheduler id with ⟨-, h⟩ | ⟨-, h⟩
      · simp only [Scheduler.perform, h]
        exact .disarms scheduler _
      · simp only [Scheduler.perform, h]
        exact .refl scheduler
  | install topology locality => exact install scheduler topology locality
  | cancelUnowned topology locality => exact cancelUnowned scheduler topology locality
  | reconcile old new script => exact reconcile scheduler old new _ _
  | advance elapsed => exact .beside rfl rfl rfl rfl fun hclosed => hclosed
  | shutdown =>
      have hshut : scheduler.Changes { scheduler with closed := true } :=
        .beside rfl rfl rfl rfl fun _ => rfl
      exact hshut.trans (.disarms _ _)
  | drop => exact .disarms scheduler _

variable {before after : Scheduler K}

/-- Changes keep a scheduler accounted for. -/
theorem accounted (hchanges : before.Changes after) (haccounted : before.Accounted) :
    after.Accounted := by
  induction hchanges with
  | beside harmed htimers hgeneration hjournal hclosed =>
      obtain ⟨hmatched, hdistinct, hends, hnumbered, hpast⟩ := haccounted
      unfold armings fires cancellations at hends
      unfold armings at hnumbered hpast
      rw [← hjournal] at hends hnumbered hpast
      rw [← harmed] at hends hdistinct
      exact ⟨by rw [htimers, harmed, hmatched], hdistinct, hends, hnumbered, hgeneration ▸ hpast⟩
  | arms hopen hfree deadline => exact haccounted.arm hfree deadline
  | disarms scheduler leaves => exact haccounted.disarm leaves
  | trans hfirst hsecond ihfirst ihsecond => exact ihsecond (ihfirst haccounted)

/-- Changes only add to the journal. -/
theorem journal_suffix (hchanges : before.Changes after) : before.journal <:+ after.journal := by
  induction hchanges with
  | beside harmed htimers hgeneration hjournal hclosed => exact hjournal ▸ List.suffix_rfl
  | arms hopen hfree deadline => exact List.suffix_cons _ _
  | disarms scheduler leaves => exact List.suffix_append _ _
  | trans hfirst hsecond ihfirst ihsecond => exact ihfirst.trans ihsecond

/-- Changes fire nothing. -/
theorem fires_eq (hchanges : before.Changes after) : after.fires = before.fires := by
  induction hchanges with
  | beside harmed htimers hgeneration hjournal hclosed => rw [fires, hjournal, fires]
  | arms hopen hfree deadline => rfl
  | disarms scheduler leaves => exact fires_disarm scheduler leaves
  | trans hfirst hsecond ihfirst ihsecond => exact ihsecond.trans ihfirst

/-- A scheduler that is shut down stays so and arms nothing more. -/
theorem shut (hchanges : before.Changes after) (hclosed : before.closed = true) :
    after.closed = true ∧ after.armed ⊆ before.armed := by
  induction hchanges with
  | beside harmed htimers hgeneration hjournal hstays =>
      rw [harmed]
      exact ⟨hstays hclosed, List.Subset.refl _⟩
  | arms hopen hfree deadline => exact absurd (hopen.symm.trans hclosed) Bool.false_ne_true
  | disarms scheduler leaves => exact ⟨hclosed, List.filter_sublist.subset⟩
  | trans hfirst hsecond ihfirst ihsecond =>
      obtain ⟨hstill, hsubset⟩ := ihfirst hclosed
      obtain ⟨hlast, hrest⟩ := ihsecond hstill
      exact ⟨hlast, List.Subset.trans hrest hsubset⟩

end Changes

/-- Timers that each find their arming in place take away just those armings. -/
theorem foldl_fire {timers : List (Timer K)} {scheduler : Scheduler K}
    (hthere : ∀ timer ∈ timers, timer.arming ∈ scheduler.armed)
    (hapart : (timers.map (·.arming)).Nodup) :
    timers.foldl fire scheduler =
      { scheduler with
        armed := scheduler.armed.filter fun arming => arming ∉ timers.map (·.arming)
        metrics := timers.foldl (fun metrics _ => metrics.recordFired) scheduler.metrics
        journal := ((timers.map (·.arming)).map (.fired · scheduler.now)).reverse
          ++ scheduler.journal } := by
  induction timers generalizing scheduler with
  | nil => simp
  | cons timer timers ih =>
      obtain ⟨hnew, hrest⟩ := List.nodup_cons.mp hapart
      rcases fire_cases scheduler timer with ⟨-, hfire⟩ | ⟨hgone, -⟩
      · rw [List.foldl_cons, hfire, ih ?_ hrest]
        · simp [List.filter_filter, Bool.and_comm]
        · intro other hother
          refine List.mem_filter.mpr ⟨hthere other (List.mem_cons_of_mem _ hother), ?_⟩
          refine decide_eq_true fun hsame => hnew ?_
          exact List.mem_map.mpr ⟨other, hother, hsame⟩
      · exact absurd (hthere timer List.mem_cons_self) hgone

/-- An accounted scheduler that comes to rest fires the armings that are due, in the order in which
they were made, and keeps the others. -/
theorem Accounted.fireDue_eq {scheduler : Scheduler K} (haccounted : scheduler.Accounted) :
    ∃ metrics, scheduler.fireDue =
      { scheduler with
        armed := scheduler.armed.filter fun arming => scheduler.now < arming.deadline
        timers := scheduler.timers.filter fun timer =>
          !timer.stopped && scheduler.now < timer.arming.deadline
        metrics := metrics
        journal := ((scheduler.armed.filter fun arming => arming.deadline ≤ scheduler.now).map
          (.fired · scheduler.now)).reverse ++ scheduler.journal } := by
  have hdue : ((scheduler.timers.filter fun timer =>
      !timer.stopped && timer.arming.deadline ≤ scheduler.now).map (·.arming)) =
      scheduler.armed.filter fun arming => arming.deadline ≤ scheduler.now := by
    rw [← haccounted.matched, List.filter_map, List.filter_filter]
    simp [Bool.and_comm]
  have hapart : (scheduler.armed.filter fun arming => arming.deadline ≤ scheduler.now).Nodup :=
    haccounted.nodup_armed.filter _
  have hkept : (scheduler.armed.filter fun arming =>
        arming ∉ scheduler.armed.filter fun arming => arming.deadline ≤ scheduler.now) =
      scheduler.armed.filter fun arming => scheduler.now < arming.deadline := by
    refine List.filter_congr fun arming hmem => ?_
    simp [List.mem_filter, hmem]
  have hthere : ∀ timer ∈ scheduler.timers.filter (fun timer =>
      !timer.stopped && timer.arming.deadline ≤ scheduler.now), timer.arming ∈ scheduler.armed := by
    intro timer htimer
    have hmem := hdue ▸ List.mem_map_of_mem htimer
    exact (List.mem_filter.mp hmem).1
  rw [← hdue] at hapart
  rw [fireDue, foldl_fire hthere hapart, hdue, hkept]
  exact ⟨_, rfl⟩

/-- What an accounted scheduler fires when it comes to rest is what was due. -/
theorem Accounted.fires_fireDue {scheduler : Scheduler K} (haccounted : scheduler.Accounted) :
    scheduler.fireDue.fires =
      ((scheduler.armed.filter fun arming => arming.deadline ≤ scheduler.now).map
        (·, scheduler.now)).reverse ++ scheduler.fires := by
  obtain ⟨metrics, hrest⟩ := haccounted.fireDue_eq
  simp [hrest, fires, List.filterMap_append, List.filterMap_map]

/-- Coming to rest arms nothing. -/
theorem Accounted.armings_fireDue {scheduler : Scheduler K} (haccounted : scheduler.Accounted) :
    scheduler.fireDue.armings = scheduler.armings := by
  obtain ⟨metrics, hrest⟩ := haccounted.fireDue_eq
  simp [hrest, armings, List.filterMap_append, List.filterMap_map]

/-- Coming to rest cancels nothing. -/
theorem Accounted.cancellations_fireDue {scheduler : Scheduler K}
    (haccounted : scheduler.Accounted) :
    scheduler.fireDue.cancellations = scheduler.cancellations := by
  obtain ⟨metrics, hrest⟩ := haccounted.fireDue_eq
  simp [hrest, cancellations, List.filterMap_append, List.filterMap_map]

/-- An accounted scheduler is accounted for at rest. -/
theorem Accounted.fireDue {scheduler : Scheduler K} (haccounted : scheduler.Accounted) :
    scheduler.fireDue.Accounted := by
  have hfires := haccounted.fires_fireDue
  have harmings := haccounted.armings_fireDue
  have hcancellations := haccounted.cancellations_fireDue
  obtain ⟨metrics, hrest⟩ := haccounted.fireDue_eq
  have harmed : scheduler.fireDue.armed =
      scheduler.armed.filter fun arming => !decide (arming.deadline ≤ scheduler.now) := by
    rw [hrest]
    refine List.filter_congr fun arming _ => ?_
    rw [← decide_not]
    exact decide_eq_decide.mpr Nat.not_le.symm
  have hgeneration : scheduler.fireDue.generation = scheduler.generation := by rw [hrest]
  refine ⟨?_, ?_, ?_, ?_, ?_⟩
  · rw [hrest, ← haccounted.matched, List.filter_map, List.filter_filter, List.filter_filter]
    simp [Bool.and_comm]
  · rw [harmed]
    exact haccounted.distinct.sublist (List.filter_sublist.map _)
  · rw [harmings, hfires, hcancellations, harmed]
    refine haccounted.ends.trans ?_
    have hsplit := List.filter_append_perm
      (fun arming => decide (arming.deadline ≤ scheduler.now)) scheduler.armed
    have hmap : ((scheduler.armed.filter fun arming => arming.deadline ≤ scheduler.now).map
        (·, scheduler.now)).map (·.1) =
        scheduler.armed.filter fun arming => arming.deadline ≤ scheduler.now := by
      rw [List.map_map]
      exact List.map_id _
    rw [List.map_append, List.map_reverse, hmap]
    refine List.perm_iff_count.mpr fun arming => ?_
    have hcount := hsplit.count_eq arming
    simp only [List.count_append, List.count_reverse] at hcount ⊢
    omega
  · rw [harmings]
    exact haccounted.numbered
  · rw [harmings, hgeneration]
    exact haccounted.past

/-- At rest no timer is left but those of the armed entries. -/
theorem Accounted.timed_fireDue {scheduler : Scheduler K} (haccounted : scheduler.Accounted) :
    scheduler.fireDue.Timed := by
  obtain ⟨metrics, hrest⟩ := haccounted.fireDue_eq
  have hlive : ∀ timer ∈ scheduler.timers.filter (fun timer =>
      !timer.stopped && scheduler.now < timer.arming.deadline),
      (⟨timer.arming, false⟩ : Timer K) = timer := by
    rintro ⟨arming, stopped⟩ hmem
    have hruns := (List.mem_filter.mp hmem).2
    rw [Bool.and_eq_true, Bool.not_eq_true'] at hruns
    rw [← hruns.1]
  have hkept : (scheduler.timers.filter fun timer =>
      !timer.stopped && scheduler.now < timer.arming.deadline).map (·.arming) =
      scheduler.armed.filter fun arming => scheduler.now < arming.deadline := by
    rw [← haccounted.matched, List.filter_map, List.filter_filter]
    simp [Bool.and_comm]
  rw [Timed, hrest, ← hkept, List.map_map]
  exact ((List.map_congr_left hlive).trans (List.map_id' _)).symm

/-- At rest no deadline has been reached. -/
theorem Accounted.pending_fireDue {scheduler : Scheduler K} (haccounted : scheduler.Accounted)
    {arming : Arming K} (hmem : arming ∈ scheduler.fireDue.armed) :
    scheduler.fireDue.now < arming.deadline := by
  obtain ⟨metrics, hrest⟩ := haccounted.fireDue_eq
  rw [hrest] at hmem ⊢
  exact of_decide_eq_true (List.mem_filter.mp hmem).2

end Scheduler

end Custody
