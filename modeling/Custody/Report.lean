/-
# Reports and outcomes

A scheduling pass reports how many candidates it read, armed and left alone, and whether it stopped
early; the numbers have 64 bits.  Every reconciliation, whichever way it goes, comes to one of six
outcomes.
-/

import Custody.Error

namespace Custody

/-- What a scheduling pass did. -/
structure Report where
  /-- Candidates read from the store. -/
  visited : UInt64 := 0
  /-- Candidates armed. -/
  armed : UInt64 := 0
  /-- Candidates left alone. -/
  skipped : UInt64 := 0
  /-- The pass stopped early because it was cancelled. -/
  interrupted : Bool := false
deriving DecidableEq, Repr

/-- How a reconciliation ended. -/
inductive Outcome where
  /-- There was nothing to do. -/
  | noop
  /-- A cancellation pass disarmed some entries. -/
  | cancelled (entries : Nat)
  /-- A scheduling pass ran to its end. -/
  | scheduled (report : Report)
  /-- A newer reconciliation, or shutting down, overtook the pass. -/
  | superseded
  /-- The pass failed and is not tried again. -/
  | failed (message : String)
  /-- The executor no longer accepted the pass. -/
  | rejected
deriving DecidableEq, Repr

/-- Whether the reconciliation reached its end, or had nothing to do. -/
def Outcome.isComplete : Outcome → Bool
  | noop | cancelled _ | scheduled _ => true
  | superseded | failed _ | rejected => false

end Custody
