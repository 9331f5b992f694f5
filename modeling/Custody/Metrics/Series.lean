/-
# Series

The three kinds of measurement that outgrow a single number.  A pass timer keeps the number of
passes, their total and the longest of them, in microseconds that wrap around at 64 bits; the
failure counts keep one number for each kind of failure, in the order of the kinds.
-/

import Custody.Decimal.Binary64

namespace Custody

/-- What a pass timer shows at one moment. -/
structure PassTimes where
  count : UInt64
  total : Duration
  longest : Duration
deriving DecidableEq

/-- The mean duration of the passes, zero before the first one.  Up to 32-bit counts it is the exact
quotient rounded down; beyond, the quotient of rounded seconds. -/
def PassTimes.mean (times : PassTimes) : Duration :=
  if times.count = 0 then Duration.zero
  else if times.count.toNat < UInt32.size then ⟨times.total.nanos / times.count.toNat⟩
  else Duration.nearest (times.total.seconds.div (Binary64.ofNat times.count.toNat))

/-- Number, total and maximum of timed passes. -/
structure PassTimer where
  count : UInt64 := 0
  totalMicros : UInt64 := 0
  longestMicros : UInt64 := 0
deriving DecidableEq

namespace PassTimer

/-- Take note of one pass. -/
def record (timer : PassTimer) (elapsed : Duration) : PassTimer :=
  { count := timer.count + 1
    totalMicros := timer.totalMicros + elapsed.saturatingMicros
    longestMicros := max timer.longestMicros elapsed.saturatingMicros }

/-- The values of a timer as durations. -/
def times (timer : PassTimer) : PassTimes :=
  { count := timer.count
    total := Duration.ofMicros timer.totalMicros.toNat
    longest := Duration.ofMicros timer.longestMicros.toNat }

end PassTimer

/-- Failures counted by kind, in the order of the kinds. -/
structure FailureCounts where
  entries : List (String × UInt64) := []
deriving DecidableEq

namespace FailureCounts

/-- Count one more failure of a kind. -/
def increment (kind : String) : List (String × UInt64) → List (String × UInt64)
  | [] => [(kind, 1)]
  | (other, count) :: rest =>
      if kind = other then (other, count + 1) :: rest
      else if kind < other then (kind, 1) :: (other, count) :: rest
      else (other, count) :: increment kind rest

/-- Take note of a failure. -/
def record (counts : FailureCounts) (kind : String) : FailureCounts :=
  ⟨increment kind counts.entries⟩

/-- The number of failures of a kind. -/
def get (counts : FailureCounts) (kind : String) : UInt64 :=
  (counts.entries.lookup kind).getD 0

/-- The number of failures of all kinds. -/
def total (counts : FailureCounts) : UInt64 :=
  counts.entries.foldl (fun sum entry => sum + entry.2) 0

end FailureCounts

end Custody
