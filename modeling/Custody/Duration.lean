/-
# Durations

A length of time in whole nanoseconds.  It is shown as whole seconds and the nanoseconds that
remain.
-/

namespace Custody

/-- A length of time. -/
structure Duration where
  /-- All of it, in nanoseconds. -/
  nanos : Nat
deriving DecidableEq, Repr

namespace Duration

/-- No time at all. -/
def zero : Duration := ⟨0⟩

/-- A duration of whole seconds and further nanoseconds. -/
def ofParts (seconds nanos : Nat) : Duration := ⟨seconds * 1000000000 + nanos⟩

/-- A duration of whole seconds. -/
def ofSeconds (seconds : Nat) : Duration := ofParts seconds 0

/-- A duration of whole milliseconds. -/
def ofMillis (millis : Nat) : Duration := ⟨millis * 1000000⟩

/-- A duration of whole microseconds. -/
def ofMicros (micros : Nat) : Duration := ⟨micros * 1000⟩

/-- The whole seconds of a duration. -/
def wholeSeconds (duration : Duration) : Nat := duration.nanos / 1000000000

/-- The nanoseconds beyond the whole seconds. -/
def subsecNanos (duration : Duration) : Nat := duration.nanos % 1000000000

/-- The whole milliseconds of a duration. -/
def wholeMillis (duration : Duration) : Nat := duration.nanos / 1000000

/-- The whole microseconds of a duration, at most the largest 64-bit number. -/
def saturatingMicros (duration : Duration) : UInt64 :=
  UInt64.ofNat (min (duration.nanos / 1000) (UInt64.size - 1))

end Duration

end Custody
