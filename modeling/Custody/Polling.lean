/-
# Polling

Some conditions can only be asked for again and again.  They are asked every five milliseconds until
a time limit; a condition is asked once more when the limit is over, a search for a result is not.
The number of questions that fit before the limit decides everything, so the clock does not appear.
-/

namespace Custody.Polling

/-- The milliseconds between two questions. -/
def interval : Nat := 5

/-- The number of questions that are asked strictly before a limit in milliseconds. -/
def questionsWithin (limit : Nat) : Nat := (limit + interval - 1) / interval

/-- The first of a number of questions, counted from `next`, whose answer is accepted. -/
def firstAccepted {α : Type} (ask : Nat → α) (accept : α → Bool) : Nat → Nat → Option (Nat × α)
  | 0, _ => none
  | questions + 1, next =>
      if accept (ask next) then some (next, ask next)
      else firstAccepted ask accept questions (next + 1)

/-- Whether a condition comes to hold, and how often it was asked. -/
def waitUntil (condition : Nat → Bool) (limit : Nat) : Bool × Nat :=
  let questions := questionsWithin limit
  match firstAccepted condition id questions 1 with
  | some (asked, _) => (true, asked)
  | none => (condition (questions + 1), questions + 1)

/-- The first result that is accepted, and how often one was asked for. -/
def waitForResult {α : Type} (ask : Nat → α) (accept : α → Bool) (limit : Nat) :
    Option α × Nat :=
  let questions := questionsWithin limit
  match firstAccepted ask accept questions 1 with
  | some (asked, result) => (some result, asked)
  | none => (none, questions)

end Custody.Polling
