/-
# Identities of nodes, topologies and segments

Nodes and topologies carry 64-bit numbers.  The key space is cut into segments, which are counted
from zero.  A topology takes effect in two phases: before it applies, when the old ownership still
holds, and after.
-/

namespace Custody

/-- A member of the cluster. -/
abbrev NodeId := UInt64

/-- The version of an ownership snapshot; a newer topology has a larger number. -/
abbrev TopologyId := UInt64

/-- One part of the key space, counted from zero. -/
abbrev SegmentId := Nat

/-- A point on the clock, in milliseconds since it started. -/
abbrev Instant := Nat

/-- The two moments at which a transition is announced. -/
inductive Phase where
  /-- The new ownership is about to apply; the old one still holds. -/
  | pre
  /-- The new ownership holds. -/
  | post
deriving DecidableEq, Repr

namespace Phase

/-- Whether the transition is still to be applied. -/
def isPre : Phase → Bool
  | pre => true
  | post => false

/-- The short name of a phase in logs and metrics. -/
def label : Phase → String
  | pre => "pre"
  | post => "post"

/-- The name under which a phase is written in structural text and in JSON. -/
def name : Phase → String
  | pre => "Pre"
  | post => "Post"

end Phase

end Custody
