/-
# What polls of a handle answer

The outcome of a reconciliation arrives once, when it is sent or when the sending end is given up, and
polls come at any moments.  Polls before that moment find nothing.  The first poll after it takes the
outcome away, and all others say that the reconciliation was superseded, whatever became of it.  So a
handle keeps its outcome when it is asked once, or when the reconciliation was superseded in fact.
-/

import Custody.Handle

namespace Custody

/-- What happens at the two ends of a handle. -/
inductive HandleEvent where
  /-- The outcome is sent. -/
  | sent (outcome : Outcome)
  /-- The sending end is given up. -/
  | givenUp
  /-- Somebody asks for the outcome. -/
  | polled
deriving DecidableEq, Repr

namespace HandleEvent

/-- What an event makes of a handle that waits. -/
def settles : HandleEvent → Option Outcome
  | sent outcome => some outcome
  | givenUp => some .superseded
  | polled => none

/-- The outcome that a handle comes to which waits at first: what is sent, unless the sending end is given
up before. -/
def settled (events : List HandleEvent) : Option Outcome := events.findSome? settles

/-- The number of polls before the outcome is there. -/
def pollsBefore (events : List HandleEvent) : Nat :=
  (events.takeWhile fun event => event = polled).length

/-- The number of polls once the outcome is there. -/
def pollsAfter (events : List HandleEvent) : Nat :=
  (events.dropWhile fun event => event = polled).count polled

theorem count_polled_sent (outcome : Outcome) (later : List HandleEvent) :
    (sent outcome :: later).count polled = later.count polled := by
  have hother : sent outcome ≠ polled := nofun
  exact List.count_cons_of_ne hother

theorem count_polled_givenUp (later : List HandleEvent) :
    (givenUp :: later).count polled = later.count polled := by
  have hother : givenUp ≠ polled := nofun
  exact List.count_cons_of_ne hother

end HandleEvent

namespace Channel

open HandleEvent

/-- The answers to the polls among some events. -/
def answers : Channel → List HandleEvent → List (Option Outcome)
  | _, [] => []
  | channel, .sent outcome :: later => (channel.send outcome).answers later
  | channel, .givenUp :: later => channel.giveUp.answers later
  | channel, .polled :: later => channel.poll.1 :: channel.poll.2.answers later

/-- The answers to a number of polls, of which the first takes something away. -/
def readOnce (first : Option Outcome) : Nat → List (Option Outcome)
  | 0 => []
  | later + 1 => first :: List.replicate later (some .superseded)

/-- Nothing arrives any more at a closed channel. -/
theorem answers_closed (events : List HandleEvent) :
    closed.answers events = List.replicate (events.count polled) (some .superseded) := by
  induction events with
  | nil => rfl
  | cons event later ih =>
      cases event with
      | sent outcome => rwa [count_polled_sent]
      | givenUp => rwa [count_polled_givenUp]
      | polled =>
          rw [List.count_cons_self, List.replicate_succ]
          exact congrArg (some .superseded :: ·) ih

/-- What has arrived is read by the first poll, and sending more or giving up changes nothing. -/
theorem answers_holding (outcome : Outcome) (events : List HandleEvent) :
    (holding outcome).answers events = readOnce (some outcome) (events.count polled) := by
  induction events with
  | nil => rfl
  | cons event later ih =>
      cases event with
      | sent other => rwa [count_polled_sent]
      | givenUp => rwa [count_polled_givenUp]
      | polled =>
          rw [List.count_cons_self]
          exact congrArg (some outcome :: ·) (answers_closed later)

/-- Reading once makes no difference where there is one poll at most, or where the first poll finds what
all others say. -/
theorem readOnce_eq_replicate (first : Option Outcome) (count : Nat) :
    readOnce first count = List.replicate count first ↔ count ≤ 1 ∨ first = some .superseded := by
  rcases count with _ | _ | later
  · simp [readOnce]
  · simp [readOnce]
  · have hmany : ¬ later + 1 + 1 ≤ 1 := by omega
    simp only [readOnce, List.replicate_succ, List.cons.injEq, true_and, or_iff_right hmany]
    constructor
    · rintro ⟨hsecond, -⟩
      exact hsecond.symm
    · rintro rfl
      exact ⟨rfl, rfl⟩

/-- Polls of a waiting channel find nothing until the outcome is there, and the first poll after that
takes it away. -/
theorem answers_pending (events : List HandleEvent) :
    pending.answers events =
      List.replicate (pollsBefore events) none ++ readOnce (settled events) (pollsAfter events) := by
  induction events with
  | nil => rfl
  | cons event later ih =>
      cases event with
      | sent outcome =>
          have hafter : pollsAfter (sent outcome :: later) = later.count polled :=
            count_polled_sent outcome later
          rw [hafter]
          exact answers_holding outcome later
      | givenUp =>
          have hafter : pollsAfter (givenUp :: later) = later.count polled :=
            count_polled_givenUp later
          rw [hafter]
          exact (answers_closed later).trans ((readOnce_eq_replicate _ _).mpr (Or.inr rfl)).symm
      | polled => exact congrArg (none :: ·) ih

end Channel

namespace Handle

open HandleEvent

/-- The answers to the polls of a handle among some events. -/
def answers (handle : Handle) (events : List HandleEvent) : List (Option Outcome) :=
  handle.channel.answers events

/-- A number of polls in a row are so many events. -/
theorem polls_eq_answers (count : Nat) (handle : Handle) :
    handle.polls count = handle.answers (List.replicate count .polled) := by
  induction count generalizing handle with
  | zero => rfl
  | succ count ih => exact congrArg (handle.poll.1 :: ·) (ih handle.poll.2)

/-- Polls of a handle that waits, at any moments: none finds anything before the outcome is there, the
first after that finds it, and all others say that the reconciliation was superseded.  So the handle keeps
its outcome exactly when it is asked once at most, or when it was superseded.  A handle that is ready
answers like one to which the outcome is sent before all else. -/
theorem answers_keep_iff (id : ReconciliationId) (events : List HandleEvent) :
    (waiting id).answers events =
      List.replicate (pollsBefore events) none ++
        Channel.readOnce (settled events) (pollsAfter events) ∧
    ((waiting id).answers events =
        List.replicate (pollsBefore events) none ++
          List.replicate (pollsAfter events) (settled events) ↔
      pollsAfter events ≤ 1 ∨ settled events = some .superseded) ∧
    ∀ outcome, (ready outcome).answers events = (waiting id).answers (.sent outcome :: events) ∧
      ∀ count, (ready outcome).polls count = Channel.readOnce (some outcome) count := by
  have hanswers : (waiting id).answers events =
      List.replicate (pollsBefore events) none ++
        Channel.readOnce (settled events) (pollsAfter events) := Channel.answers_pending events
  refine ⟨hanswers, ?_, fun outcome => ⟨rfl, fun count => ?_⟩⟩
  · rw [hanswers, List.append_cancel_left_eq]
    exact Channel.readOnce_eq_replicate _ _
  · rw [polls_eq_answers]
    exact (Channel.answers_holding outcome _).trans (by rw [List.count_replicate_self])

/-- A handle that is ready with nothing to do tells so once, and then that it was superseded. -/
theorem polls_ready_noop_forgets :
    (ready .noop).polls 3 = [some .noop, some .superseded, some .superseded] ∧
      (ready .noop).polls 3 ≠ List.replicate 3 (some .noop) :=
  ⟨rfl, nofun⟩

end Handle

end Custody
