/-
# The notifier

A notifier holds the snapshot in effect and announces every transition to its listeners, in the
order in which they registered.  A transition leads to a newer topology only.  Who hears of it is fixed
when it begins: a listener that registers meanwhile hears nothing of it, and one that leaves still
hears everything.  The new snapshot takes effect between the two announcements.
-/

import Custody.Ring
import Custody.Transition

namespace Custody

/-- The number of a registered listener. -/
abbrev ListenerId := Nat

/-- The snapshot in effect and those who hear of its changes. -/
structure Notifier where
  /-- The node to which everything is announced. -/
  localNode : NodeId
  current : Snapshot
  /-- The registered listeners, in the order of registration. -/
  listeners : List ListenerId
  /-- The number of the next listener. -/
  nextListener : ListenerId
deriving DecidableEq

/-- A change of the snapshot in effect, with those who hear of it. -/
structure Transition where
  old : Snapshot
  new : Snapshot
  localNode : NodeId
  audience : List ListenerId
deriving DecidableEq

namespace Transition

/-- One of the two announcements of a transition. -/
def event (transition : Transition) (phase : Phase) : TopologyEvent :=
  ⟨phase, transition.old, transition.new, transition.localNode⟩

end Transition

namespace Notifier

/-- A notifier without listeners; the first one will have the number one. -/
def new (localNode : NodeId) (initial : Snapshot) : Notifier := ⟨localNode, initial, [], 1⟩

/-- The topology in effect. -/
def topology (notifier : Notifier) : TopologyId := notifier.current.topology

/-- Register a listener. -/
def addListener (notifier : Notifier) : ListenerId × Notifier :=
  (notifier.nextListener,
    { notifier with
      listeners := notifier.listeners ++ [notifier.nextListener]
      nextListener := notifier.nextListener + 1 })

/-- Under a number that nobody has, the next listener stands on the list once. -/
theorem nodup_addListener {notifier : Notifier} (honce : notifier.listeners.Nodup)
    (hfresh : notifier.nextListener ∉ notifier.listeners) :
    notifier.addListener.2.listeners.Nodup := by
  refine List.nodup_append.mpr ⟨honce, List.pairwise_singleton _ _, ?_⟩
  rintro id hmem next hnext rfl
  exact hfresh (List.mem_singleton.mp hnext ▸ hmem)

/-- Remove a listener, if it is registered. -/
def removeListener (notifier : Notifier) (id : ListenerId) : Bool × Notifier :=
  (notifier.listeners.contains id,
    { notifier with listeners := notifier.listeners.filter (· ≠ id) })

/-- The transition to a snapshot, unless its topology is not newer. -/
def propose (notifier : Notifier) (next : Snapshot) : Except Error Transition :=
  if next.topology ≤ notifier.topology then
    .error (.staleTopology notifier.topology next.topology)
  else .ok ⟨notifier.current, next, notifier.localNode, notifier.listeners⟩

/-- The new snapshot of a transition takes effect. -/
def apply (notifier : Notifier) (transition : Transition) : Notifier :=
  { notifier with current := transition.new }

/-- The ownership of a ring as the next topology over the same segments. -/
def nextOfRing (notifier : Notifier) (ring : Ring) : Snapshot :=
  ring.snapshot (notifier.topology + 1) notifier.current.segmentCount

/-- The structural text of a notifier. -/
def structuralText (notifier : Notifier) : String :=
  Text.record "TopologyNotifier"
    [("local_node", toString notifier.localNode), ("topology_id", toString notifier.topology),
      ("listeners", toString notifier.listeners.length)]

end Notifier

end Custody
