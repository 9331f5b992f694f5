/-
# Fleets

A fleet is any number of nodes that go through the same sequence of snapshots, each at its own pace.
Its nodes take steps one at a time and in any order; what a node does is seen by no other node.  The
source of the snapshots promises two things and no more: a node is given the snapshots in sequence,
and no node hears that a snapshot is in effect before every node has dealt with the losses that it
brings.
-/

import Custody.Node.Action

namespace Custody

/-- Nodes, each under the name of a member. -/
abbrev Fleet (Member K : Type) := Member → Node K

/-- Whether a node has dealt with the losses of a topology: it is in effect already, or everybody has
heard its first announcement and no cancellation pass is under way. -/
def Node.hasPrepared {K : Type} (node : Node K) (topology : TopologyId) : Bool :=
  topology ≤ node.notifier.topology ||
    node.installation.any fun installation =>
      installation.transition.new.topology = topology && installation.unheard.isEmpty &&
        installation.cancelling.isNone

namespace Fleet

variable {Member K : Type}

/-- Whether the source of the snapshots lets a node take a step. -/
def Permits (sequence : List Snapshot) (fleet : Fleet Member K) (member : Member) :
    NodeAction K → Prop
  | .beginInstall next =>
      (fleet member).installation = none → (fleet member).notifier.topology < next.topology →
        [(fleet member).notifier.current, next] <:+: sequence
  | .advanceInstall =>
      ∀ installation, (fleet member).installation = some installation →
        installation.phase = .post → installation.unheard ≠ [] →
          ∀ other, (fleet other).hasPrepared installation.transition.new.topology = true
  | _ => True

variable [DecidableEq Member] [DecidableEq K]

/-- One node takes a step. -/
def act (fleet : Fleet Member K) (step : Member × NodeAction K) : Fleet Member K := fun member =>
  if member = step.1 then (fleet member).act step.2 else fleet member

/-- The fleet after a sequence of steps. -/
def run (fleet : Fleet Member K) (steps : List (Member × NodeAction K)) : Fleet Member K :=
  steps.foldl act fleet

/-- Whether the promise is kept at every step of a run. -/
def Keeps (sequence : List Snapshot) : Fleet Member K → List (Member × NodeAction K) → Prop
  | _, [] => True
  | fleet, step :: later =>
      fleet.Permits sequence step.1 step.2 ∧ Keeps sequence (fleet.act step) later

end Fleet

end Custody
