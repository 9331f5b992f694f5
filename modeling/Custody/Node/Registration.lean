/-
# Registering step by step

A listener registers in steps, between which anything else may happen: it reads the snapshot in
effect, it lets what the node owns under that snapshot decide and takes everything else back, and only
then it puts itself on the list of the notifier.  An installation that is under way meanwhile goes on
with the audience that it began with.

Registering as a whole takes these steps with nothing in between.
-/

import Custody.Node.Action

namespace Custody

/-- How far a listener has come in registering. -/
inductive Enrolment where
  /-- It has not begun. -/
  | outside
  /-- It has read a snapshot. -/
  | informed (read : Snapshot)
  /-- What the node owns under the snapshot that was read decides, and everything else was taken
  back. -/
  | confined (read : Snapshot)
  /-- It is on the list of the notifier. -/
  | enrolled

/-- A node whose listener registers. -/
structure Newcomer (K : Type) where
  node : Node K
  enrolment : Enrolment

/-- One step of a node whose listener registers. -/
inductive NewcomerAction (K : Type) where
  /-- The node takes a step of any other kind. -/
  | meanwhile (action : NodeAction K)
  /-- The listener reads the snapshot in effect. -/
  | read
  /-- What the node owns under the snapshot that was read decides from now on; nothing is taken back
  yet. -/
  | narrow
  /-- The same, and what the node does not own under it is taken back. -/
  | confine
  /-- The listener puts itself on the list of the notifier. -/
  | enrol

/-- What the local node owns under a snapshot. -/
def Node.localityUnder {K : Type} (node : Node K) (snapshot : Snapshot) : SegmentLocality K :=
  .ofSnapshot node.listener.partitioner snapshot node.localNode

namespace Newcomer

variable {K : Type}

/-- A node whose listener has yet to register, beside a number of listeners that look on. -/
def beside (node : Node K) (observers : Nat) : Newcomer K :=
  ⟨Nat.repeat Node.addObserver observers node, .outside⟩

/-- The listener reads the snapshot in effect. -/
def read (newcomer : Newcomer K) : Newcomer K :=
  match newcomer.enrolment with
  | .outside => { newcomer with enrolment := .informed newcomer.node.notifier.current }
  | _ => newcomer

/-- What the listener read decides from now on. -/
def narrow (newcomer : Newcomer K) : Newcomer K :=
  match newcomer.enrolment with
  | .informed read =>
      let node := newcomer.node
      { newcomer with
        node := { node with
          scheduler := Node.tasks.install (node.localityUnder read) node.scheduler } }
  | _ => newcomer

/-- What the listener read decides, and everything else is taken back. -/
def confine (newcomer : Newcomer K) : Newcomer K :=
  match newcomer.enrolment with
  | .informed read =>
      let node := newcomer.node
      let locality := node.localityUnder read
      { node := { node with
          listener := { node.listener with
            metrics := node.listener.metrics.setOwned locality.segments.size }
          scheduler := (Node.tasks.cancel locality node.scheduler).2 }
        enrolment := .confined read }
  | _ => newcomer

/-- The listener puts itself on the list of the notifier. -/
def enrol (newcomer : Newcomer K) : Newcomer K :=
  match newcomer.enrolment with
  | .confined _ =>
      let (id, notifier) := newcomer.node.notifier.addListener
      { node := { newcomer.node with notifier := notifier, registration := some id }
        enrolment := .enrolled }
  | _ => newcomer

variable [DecidableEq K]

/-- The node takes a step that is not a registration; the listener registers step by step. -/
def proceed (newcomer : Newcomer K) : NodeAction K → Newcomer K
  | .register => newcomer
  | action => { newcomer with node := newcomer.node.act action }

/-- Take one step. -/
def step (newcomer : Newcomer K) : NewcomerAction K → Newcomer K
  | .meanwhile action => newcomer.proceed action
  | .read => newcomer.read
  | .narrow => newcomer.narrow
  | .confine => newcomer.confine
  | .enrol => newcomer.enrol

/-- The node and its listener after a sequence of steps. -/
def run (newcomer : Newcomer K) (history : List (NewcomerAction K)) : Newcomer K :=
  history.foldl step newcomer

end Newcomer

/-- A step of a node as steps of one whose listener registers. -/
def NodeAction.unfolded {K : Type} : NodeAction K → List (NewcomerAction K)
  | .register => [.read, .confine, .enrol]
  | action => [.meanwhile action]

end Custody
