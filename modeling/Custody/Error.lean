/-
# Causes of failure

Everything that can go wrong is one of six causes, each with the data that its message needs.  The
message is for people, the kind is the label under which failures are counted, and the structural
text shows the cause with its fields.
-/

import Custody.Ids
import Custody.Text.Structure

namespace Custody

/-- Why an operation failed. -/
inductive Error where
  /-- A configuration or a snapshot contradicts its own rules. -/
  | config (detail : String)
  /-- The executor no longer accepts passes. -/
  | rejected
  /-- The store could not list its entries. -/
  | enumeration (detail : String)
  /-- A topology was proposed that is not newer than the current one. -/
  | staleTopology (current proposed : TopologyId)
  /-- A segment lies outside the key space. -/
  | invalidSegment (segment segmentCount : Nat)
  /-- Something broke that is not the caller's doing. -/
  | internal (detail : String)
deriving DecidableEq, Repr

namespace Error

/-- The label under which a failure is counted. -/
def kind : Error → String
  | config _ => "config"
  | rejected => "rejected"
  | enumeration _ => "enumeration"
  | staleTopology _ _ => "stale_topology"
  | invalidSegment _ _ => "invalid_segment"
  | internal _ => "internal"

/-- The message shown to people. -/
def message : Error → String
  | config detail => "config error: " ++ detail
  | rejected => "reconciliation rejected: executor is shut down"
  | enumeration detail => "entry enumeration failed: " ++ detail
  | staleTopology current proposed =>
      "stale topology: current " ++ toString current ++ ", proposed " ++ toString proposed
  | invalidSegment segment segmentCount =>
      "segment " ++ toString segment ++ " out of range (segment count " ++ toString segmentCount
        ++ ")"
  | internal detail => "internal error: " ++ detail

/-- The structural text of a cause. -/
def structuralText : Error → String
  | config detail => Text.wrapped "Config" (Text.quoted detail)
  | rejected => "Rejected"
  | enumeration detail => Text.wrapped "Enumeration" (Text.quoted detail)
  | staleTopology current proposed =>
      Text.record "StaleTopology" [("current", toString current), ("proposed", toString proposed)]
  | invalidSegment segment segmentCount =>
      Text.record "InvalidSegment"
        [("segment", toString segment), ("segment_count", toString segmentCount)]
  | internal detail => Text.wrapped "Internal" (Text.quoted detail)

/-- The failure of a pass whose work broke down with a message.  The number of the broken task is
not part of the text; the letter stands in its place. -/
def brokenTask (text : String) : Error :=
  internal ("reconciliation task failed: task N panicked with message " ++ Text.quoted text)

end Error

end Custody
