/-
# What the operations of a scheduler do

Each operation is described once, by all that it can do, and later modules cite these descriptions
instead of opening the operations.  Most operations leave the gate where it is and arm nothing that
the gate does not own; this is what `Gated` says of a scheduler before and after, and it is all that
the questions of ownership need to know of scheduling passes, applications and timers.
-/

import Custody.Scheduler.Pass

namespace Custody

namespace Scheduler

variable {K : Type}

/-- A locality from a topology that is not older than the installed one is accepted. -/
theorem install_of_le {scheduler : Scheduler K} {topology : TopologyId}
    (hle : ∀ current, scheduler.gate.topology = some current → current ≤ topology)
    (locality : Locality K) :
    scheduler.install topology locality =
      (true, { scheduler with gate := ⟨some topology, locality⟩ }) := by
  have hnot : scheduler.gate.topology.any (topology < ·) = false := by
    cases hcurrent : scheduler.gate.topology with
    | none => rfl
    | some current =>
        simpa [Option.any] using UInt64.not_lt.mpr (hle current hcurrent)
  simp [install, hnot]

/-- A locality from an older topology is refused. -/
theorem install_of_lt {scheduler : Scheduler K} {topology newer : TopologyId}
    (htold : scheduler.gate.topology = some newer) (holder : topology < newer)
    (locality : Locality K) : scheduler.install topology locality = (false, scheduler) := by
  simp [install, htold, holder]

/-- A locality is accepted unless the gate was told of a newer topology. -/
theorem install_cases (scheduler : Scheduler K) (topology : TopologyId) (locality : Locality K) :
    (∃ newer, scheduler.gate.topology = some newer ∧ topology < newer ∧
      scheduler.install topology locality = (false, scheduler)) ∨
    ((∀ current, scheduler.gate.topology = some current → current ≤ topology) ∧
      scheduler.install topology locality =
        (true, { scheduler with gate := ⟨some topology, locality⟩ })) := by
  by_cases hrefused : ∃ newer, scheduler.gate.topology = some newer ∧ topology < newer
  · obtain ⟨newer, htold, holder⟩ := hrefused
    exact Or.inl ⟨newer, htold, holder, install_of_lt htold holder locality⟩
  · right
    have hle : ∀ current, scheduler.gate.topology = some current → current ≤ topology := by
      intro current htold
      apply UInt64.not_lt.mp
      intro holder
      exact hrefused ⟨current, htold, holder⟩
    exact ⟨hle, install_of_le hle locality⟩

/-- Installing a locality changes the gate at most. -/
theorem install_eq (scheduler : Scheduler K) (topology : TopologyId) (locality : Locality K) :
    ∃ gate, (scheduler.install topology locality).2 = { scheduler with gate := gate } := by
  rcases scheduler.install_cases topology locality with ⟨newer, -, -, h⟩ | ⟨-, h⟩
  · exact ⟨scheduler.gate, by rw [h]⟩
  · exact ⟨_, by rw [h]⟩

/-- A locality that is refused takes nothing back. -/
theorem cancelUnowned_of_lt {scheduler : Scheduler K} {topology newer : TopologyId}
    (htold : scheduler.gate.topology = some newer) (holder : topology < newer)
    (locality : Locality K) : scheduler.cancelUnowned topology locality = (0, scheduler) := by
  unfold cancelUnowned
  rw [install_of_lt htold holder]

/-- A locality that is accepted takes back what it does not cover. -/
theorem cancelUnowned_of_le {scheduler : Scheduler K} {topology : TopologyId}
    (hle : ∀ current, scheduler.gate.topology = some current → current ≤ topology)
    (locality : Locality K) :
    scheduler.cancelUnowned topology locality =
      { scheduler with gate := ⟨some topology, locality⟩ }.disarm fun arming =>
        !locality.owns arming.id := by
  unfold cancelUnowned
  rw [install_of_le hle]

/-- A bulk cancellation is refused, or it takes back what the locality does not cover. -/
theorem cancelUnowned_cases (scheduler : Scheduler K) (topology : TopologyId)
    (locality : Locality K) :
    (∃ newer, scheduler.gate.topology = some newer ∧ topology < newer ∧
      scheduler.cancelUnowned topology locality = (0, scheduler)) ∨
    ((∀ current, scheduler.gate.topology = some current → current ≤ topology) ∧
      scheduler.cancelUnowned topology locality =
        { scheduler with gate := ⟨some topology, locality⟩ }.disarm fun arming =>
          !locality.owns arming.id) := by
  rcases scheduler.install_cases topology locality with ⟨newer, htold, holder, -⟩ | ⟨hle, -⟩
  · exact Or.inl ⟨newer, htold, holder, cancelUnowned_of_lt htold holder locality⟩
  · exact Or.inr ⟨hle, cancelUnowned_of_le hle locality⟩

/-- What is taken back is no longer armed, and everything else still is. -/
theorem mem_armed_disarm {scheduler : Scheduler K} {leaves : Arming K → Bool}
    {arming : Arming K} :
    arming ∈ (scheduler.disarm leaves).2.armed ↔
      arming ∈ scheduler.armed ∧ leaves arming = false := by
  simp [disarm]

/-- From one scheduler to another the gate stays, and whatever is newly armed is owned under it.  The
clock does not run back. -/
structure Gated (before after : Scheduler K) : Prop where
  gate : after.gate = before.gate
  now : before.now ≤ after.now
  armed : ∀ arming ∈ after.armed,
    arming ∈ before.armed ∨ before.gate.locality.owns arming.id = true

namespace Gated

/-- Doing nothing arms nothing. -/
theorem refl (scheduler : Scheduler K) : scheduler.Gated scheduler :=
  ⟨rfl, Nat.le_refl _, fun _ hmem => Or.inl hmem⟩

/-- Gated changes compose, since the gate is the same throughout. -/
theorem trans {first second third : Scheduler K} (hfirst : first.Gated second)
    (hsecond : second.Gated third) : first.Gated third := by
  refine ⟨hsecond.gate.trans hfirst.gate, Nat.le_trans hfirst.now hsecond.now, ?_⟩
  intro arming hmem
  rcases hsecond.armed arming hmem with hbefore | howned
  · exact hfirst.armed arming hbefore
  · exact Or.inr (hfirst.gate ▸ howned)

/-- A change that only takes armings away is gated. -/
theorem of_subset {before after : Scheduler K} (hgate : after.gate = before.gate)
    (hnow : after.now = before.now) (hsubset : after.armed ⊆ before.armed) : before.Gated after :=
  ⟨hgate, Nat.le_of_eq hnow.symm, fun _ hmem => Or.inl (hsubset hmem)⟩

end Gated

/-- Taking armings back is gated. -/
theorem gated_disarm (scheduler : Scheduler K) (leaves : Arming K → Bool) :
    scheduler.Gated (scheduler.disarm leaves).2 :=
  .of_subset rfl rfl fun _ hmem => (mem_armed_disarm.mp hmem).1

variable [DecidableEq K]

/-- Whether an entry is armed is a question about the armings. -/
theorem contains_eq_true {scheduler : Scheduler K} {id : K} :
    scheduler.contains id = true ↔ ∃ arming ∈ scheduler.armed, arming.id = id := by
  simp [contains]

/-- Either the scheduler is open, the entry owned and free, and it is armed; or one of these fails
and at most a counter changes. -/
theorem schedule_cases (scheduler : Scheduler K) (id : K) (deadline : Instant) :
    (scheduler.closed = false ∧ scheduler.gate.locality.owns id = true ∧
      scheduler.contains id = false ∧
      scheduler.schedule id deadline = (true, scheduler.arm id deadline)) ∨
    ((scheduler.closed = true ∨ scheduler.gate.locality.owns id = false ∨
        scheduler.contains id = true) ∧
      ∃ metrics, scheduler.schedule id deadline =
        (false, { scheduler with metrics := metrics })) := by
  by_cases hclosed : scheduler.closed = true
  · exact Or.inr ⟨Or.inl hclosed, scheduler.metrics, by rw [schedule, if_pos hclosed]⟩
  · have hopen : scheduler.closed = false := eq_false_of_ne_true hclosed
    by_cases howns : scheduler.gate.locality.owns id = true
    · by_cases hcontains : scheduler.contains id = true
      · exact Or.inr ⟨Or.inr (Or.inr hcontains), scheduler.metrics.recordDuplicate,
          by simp [schedule, hopen, howns, hcontains]⟩
      · have hfree : scheduler.contains id = false := eq_false_of_ne_true hcontains
        exact Or.inl ⟨hopen, howns, hfree, by simp [schedule, hopen, howns, hfree]⟩
    · have hforeign : scheduler.gate.locality.owns id = false := eq_false_of_ne_true howns
      exact Or.inr ⟨Or.inr (Or.inl hforeign), scheduler.metrics.recordNotOwned,
        by simp [schedule, hopen, hforeign]⟩

@[simp] theorem gate_schedule (scheduler : Scheduler K) (id : K) (deadline : Instant) :
    (scheduler.schedule id deadline).2.gate = scheduler.gate := by
  obtain ⟨-, -, -, h⟩ | ⟨-, metrics, h⟩ := schedule_cases scheduler id deadline <;> rw [h]
  rfl

@[simp] theorem now_schedule (scheduler : Scheduler K) (id : K) (deadline : Instant) :
    (scheduler.schedule id deadline).2.now = scheduler.now := by
  obtain ⟨-, -, -, h⟩ | ⟨-, metrics, h⟩ := schedule_cases scheduler id deadline <;> rw [h]
  rfl

@[simp] theorem closed_schedule (scheduler : Scheduler K) (id : K) (deadline : Instant) :
    (scheduler.schedule id deadline).2.closed = scheduler.closed := by
  obtain ⟨-, -, -, h⟩ | ⟨-, metrics, h⟩ := schedule_cases scheduler id deadline <;> rw [h]
  rfl

/-- An arming that was not there before is the one that was asked for, and its entry is owned. -/
theorem mem_armed_schedule {scheduler : Scheduler K} {id : K} {deadline : Instant}
    {arming : Arming K} (hmem : arming ∈ (scheduler.schedule id deadline).2.armed) :
    arming ∈ scheduler.armed ∨
      arming = ⟨id, deadline, scheduler.generation + 1⟩ ∧
        scheduler.gate.locality.owns id = true := by
  obtain ⟨-, howns, -, h⟩ | ⟨-, metrics, h⟩ := schedule_cases scheduler id deadline
  · rw [h] at hmem
    rcases List.mem_append.mp hmem with hold | hnew
    · exact Or.inl hold
    · exact Or.inr ⟨List.mem_singleton.mp hnew, howns⟩
  · rw [h] at hmem
    exact Or.inl hmem

/-- An open scheduler has an owned entry armed once it was asked to arm it. -/
theorem contains_schedule {scheduler : Scheduler K} {id : K} (deadline : Instant)
    (hopen : scheduler.closed = false) (howns : scheduler.gate.locality.owns id = true) :
    (scheduler.schedule id deadline).2.contains id = true := by
  obtain ⟨-, -, -, h⟩ | ⟨hwhy, metrics, h⟩ := schedule_cases scheduler id deadline <;> rw [h]
  · exact contains_eq_true.mpr
      ⟨_, List.mem_append_right _ (List.mem_singleton.mpr rfl), rfl⟩
  · rcases hwhy with hclosed | hforeign | hcontains
    · simp [hopen] at hclosed
    · simp [howns] at hforeign
    · exact hcontains

/-- Scheduling is gated. -/
theorem gated_schedule (scheduler : Scheduler K) (id : K) (deadline : Instant) :
    scheduler.Gated (scheduler.schedule id deadline).2 := by
  refine ⟨gate_schedule scheduler id deadline, Nat.le_of_eq ?_, fun arming hmem => ?_⟩
  · rw [now_schedule]
  · rcases mem_armed_schedule hmem with hold | ⟨rfl, howns⟩
    · exact Or.inl hold
    · exact Or.inr howns

/-- Cancelling an entry takes back its armings, and nothing else happens to the armed entries. -/
theorem cancel_cases (scheduler : Scheduler K) (id : K) :
    (scheduler.contains id = true ∧
      scheduler.cancel id = (true, (scheduler.disarm fun arming => arming.id = id).2)) ∨
    (scheduler.contains id = false ∧ scheduler.cancel id = (false, scheduler)) := by
  cases hcontains : scheduler.contains id <;> simp [cancel, hcontains]

/-- Cancelling is gated. -/
theorem gated_cancel (scheduler : Scheduler K) (id : K) :
    scheduler.Gated (scheduler.cancel id).2 := by
  obtain ⟨-, h⟩ | ⟨-, h⟩ := cancel_cases scheduler id <;> rw [h]
  · exact gated_disarm scheduler _
  · exact .refl scheduler

/-- A candidate is either left alone, because its segment was not gained, or offered to the
scheduler. -/
theorem place_cases (scheduler : Scheduler K) (gained : SegmentLocality K)
    (candidate : Candidate K) (report : Report) :
    (gained.owns candidate.id = false ∧
      (scheduler.place gained candidate report).2 = scheduler) ∨
    (gained.owns candidate.id = true ∧
      (scheduler.place gained candidate report).2 =
        (scheduler.schedule candidate.id candidate.deadline).2) := by
  cases howns : gained.owns candidate.id with
  | false => exact Or.inl ⟨rfl, by simp [place, howns]⟩
  | true =>
      refine Or.inr ⟨rfl, ?_⟩
      simp only [place, howns, Bool.not_true, Bool.false_eq_true, if_false]
      split <;> next heq => rw [heq]

/-- Offering a candidate is gated. -/
theorem gated_place (scheduler : Scheduler K) (gained : SegmentLocality K)
    (candidate : Candidate K) (report : Report) :
    scheduler.Gated (scheduler.place gained candidate report).2 := by
  obtain ⟨-, h⟩ | ⟨-, h⟩ := place_cases scheduler gained candidate report <;> rw [h]
  · exact .refl scheduler
  · exact gated_schedule scheduler _ _

/-- A timer fires its own arming if that is still there; otherwise nothing happens. -/
theorem fire_cases (scheduler : Scheduler K) (timer : Timer K) :
    (timer.arming ∈ scheduler.armed ∧
      scheduler.fire timer =
        { scheduler with
          armed := scheduler.armed.filter (· ≠ timer.arming)
          metrics := scheduler.metrics.recordFired
          journal := .fired timer.arming scheduler.now :: scheduler.journal }) ∨
    (timer.arming ∉ scheduler.armed ∧ scheduler.fire timer = scheduler) := by
  by_cases hmem : timer.arming ∈ scheduler.armed
  · exact Or.inl ⟨hmem, by simp [fire, hmem]⟩
  · exact Or.inr ⟨hmem, by simp [fire, hmem]⟩

/-- Firing takes armings away. -/
theorem gated_fire (scheduler : Scheduler K) (timer : Timer K) :
    scheduler.Gated (scheduler.fire timer) := by
  obtain ⟨-, h⟩ | ⟨-, h⟩ := fire_cases scheduler timer <;> rw [h]
  · exact .of_subset rfl rfl List.filter_sublist.subset
  · exact .refl scheduler

/-- Coming to rest takes armings away. -/
theorem gated_fireDue (scheduler : Scheduler K) : scheduler.Gated scheduler.fireDue := by
  have hfold : ∀ (timers : List (Timer K)) (start : Scheduler K),
      start.Gated (timers.foldl fire start) := by
    intro timers
    induction timers with
    | nil => exact .refl
    | cons timer timers ih => exact fun start => (gated_fire start timer).trans (ih _)
  exact ⟨(hfold _ scheduler).gate, (hfold _ scheduler).now, (hfold _ scheduler).armed⟩

/-- Nothing fires while every armed deadline lies ahead. -/
theorem fireDue_of_ahead {scheduler : Scheduler K}
    (hahead : ∀ arming ∈ scheduler.armed, scheduler.now < arming.deadline) :
    ∃ timers, scheduler.fireDue = { scheduler with timers := timers } := by
  have hfold : ∀ timers : List (Timer K),
      (∀ timer ∈ timers, timer.arming.deadline ≤ scheduler.now) →
      timers.foldl fire scheduler = scheduler := by
    intro timers
    induction timers with
    | nil => exact fun _ => rfl
    | cons timer timers ih =>
        intro hdue
        have hgone : timer.arming ∉ scheduler.armed := by
          intro hmem
          exact absurd (hdue timer List.mem_cons_self) (Nat.not_le.mpr (hahead _ hmem))
        obtain ⟨hmem, -⟩ | ⟨-, h⟩ := fire_cases scheduler timer
        · exact absurd hmem hgone
        · rw [List.foldl_cons, h]
          exact ih fun later hlater => hdue later (List.mem_cons_of_mem _ hlater)
  have hnone := hfold (scheduler.timers.filter fun timer =>
    !timer.stopped && timer.arming.deadline ≤ scheduler.now) (by simp)
  refine ⟨scheduler.timers.filter fun timer =>
    !timer.stopped && scheduler.now < timer.arming.deadline, ?_⟩
  dsimp only [fireDue]
  rw [hnone]

/-- Moving the clock takes armings away. -/
theorem gated_advance (scheduler : Scheduler K) (elapsed : Nat) :
    scheduler.Gated (scheduler.advance elapsed) := by
  have hmoved := gated_fireDue { scheduler with now := scheduler.now + elapsed }
  exact ⟨hmoved.gate, Nat.le_trans (Nat.le_add_right _ _) hmoved.now, hmoved.armed⟩

/-- The clock may move freely up to the first armed deadline. -/
theorem advance_of_ahead {scheduler : Scheduler K} {elapsed : Nat}
    (hahead : ∀ arming ∈ scheduler.armed, scheduler.now + elapsed < arming.deadline) :
    ∃ timers, scheduler.advance elapsed =
      { scheduler with now := scheduler.now + elapsed, timers := timers } :=
  fireDue_of_ahead hahead

end Scheduler

end Custody
