/-
# Partitioners

A partitioner places every key in one of a fixed number of segments, and always in the same one.
Keys are placed by their hash or, for numbers, by their remainder.  A partitioner has at least one
segment: a count of zero is taken as one.
-/

import Custody.Hash.KeyBytes
import Custody.Ids

namespace Custody

/-- A fixed placement of keys in segments. -/
structure Partitioner (K : Type) where
  /-- The number of segments. -/
  segmentCount : Nat
  /-- The segment of a key. -/
  segmentOf : K → SegmentId
  /-- Every key lies in one of the segments. -/
  segmentOf_lt : ∀ key, segmentOf key < segmentCount

namespace Partitioner

/-- At least one segment. -/
def clamp (segmentCount : Nat) : Nat := max segmentCount 1

/-- A clamped count leaves room for a key. -/
theorem clamp_pos (segmentCount : Nat) : 0 < clamp segmentCount :=
  Nat.lt_of_lt_of_le Nat.zero_lt_one (Nat.le_max_right segmentCount 1)

/-- Keys are placed by their hash. -/
def hashed (K : Type) [KeyBytes K] (segmentCount : Nat) : Partitioner K where
  segmentCount := clamp segmentCount
  segmentOf key := (KeyBytes.hash key).toNat % clamp segmentCount
  segmentOf_lt _ := Nat.mod_lt _ (clamp_pos segmentCount)

/-- Numbers are placed by their remainder. -/
def modulo (segmentCount : Nat) : Partitioner UInt64 where
  segmentCount := clamp segmentCount
  segmentOf key := key.toNat % clamp segmentCount
  segmentOf_lt _ := Nat.mod_lt _ (clamp_pos segmentCount)

end Partitioner

end Custody
