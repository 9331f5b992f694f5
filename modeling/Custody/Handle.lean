/-
# Handles

Whoever starts a reconciliation receives a handle through which its outcome arrives.  Behind the
handle is a channel that carries one outcome: it may be sent, it may be given up without being
sent, and it is read at most once.  A poll of a channel that is given up, or that was read before,
says that the reconciliation was superseded.
-/

import Custody.Report

namespace Custody

/-- The number of a scheduling pass, in the order of submission. -/
abbrev PassId := Nat

/-- What a handle stands for. -/
inductive ReconciliationId where
  /-- A cancellation pass. -/
  | cancellation
  /-- A scheduling pass. -/
  | scheduling (id : PassId)
deriving DecidableEq, Repr

/-- The channel that carries one outcome. -/
inductive Channel where
  /-- Nothing was sent and something still may be. -/
  | pending
  /-- The outcome has arrived. -/
  | holding (outcome : Outcome)
  /-- Nothing will arrive any more. -/
  | closed
deriving DecidableEq, Repr

namespace Channel

/-- Send an outcome.  Only a pending channel takes it. -/
def send (outcome : Outcome) : Channel → Channel
  | pending => holding outcome
  | channel => channel

/-- Give up the sending end.  What has arrived can still be read. -/
def giveUp : Channel → Channel
  | pending => closed
  | channel => channel

/-- Read what has arrived; the first reading takes it away. -/
def poll : Channel → Option Outcome × Channel
  | pending => (none, pending)
  | holding outcome => (some outcome, closed)
  | closed => (some .superseded, closed)

end Channel

/-- The receiving end of one reconciliation. -/
structure Handle where
  /-- The reconciliation behind the handle, if one was begun. -/
  id : Option ReconciliationId
  channel : Channel
deriving DecidableEq, Repr

namespace Handle

/-- A handle whose outcome is there from the start. -/
def ready (outcome : Outcome) : Handle := ⟨none, .holding outcome⟩

/-- A handle that waits for the outcome of a reconciliation. -/
def waiting (id : ReconciliationId) : Handle := ⟨some id, .pending⟩

/-- Send the outcome to the handle. -/
def send (handle : Handle) (outcome : Outcome) : Handle :=
  { handle with channel := handle.channel.send outcome }

/-- Give up the sending end. -/
def giveUp (handle : Handle) : Handle := { handle with channel := handle.channel.giveUp }

/-- Ask for the outcome without waiting. -/
def poll (handle : Handle) : Option Outcome × Handle :=
  let (outcome, channel) := handle.channel.poll
  (outcome, { handle with channel := channel })

/-- The answers to a number of polls in a row. -/
def polls : Nat → Handle → List (Option Outcome)
  | 0, _ => []
  | count + 1, handle =>
      let (outcome, later) := handle.poll
      outcome :: polls count later

/-- Wait for the outcome as long as anything can still arrive; nothing is left pending here. -/
def wait (handle : Handle) : Outcome := handle.poll.1.getD .superseded

end Handle

end Custody
