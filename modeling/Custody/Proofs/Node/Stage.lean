/-
# Where a node stands in a transition

While a snapshot is being installed, the listener of a node passes through four stages.  It has not
heard of the transition; its cancellation pass is under way; it owns only what it owns on both
sides; it has taken up the new side.  A stage names the snapshots that bound what the node may have
armed, and the segments at which its gate stands.

A stage is read off the installation and nothing else.  What it says about gate and armings is
`Aligned`, which every step keeps.
-/

import Custody.Proofs.Node.Steps
import Custody.Proofs.Transition

namespace Custody

/-- Where the listener of a node stands between two snapshots. -/
inductive Stage where
  /-- Nothing is being installed. -/
  | steady (current : Snapshot)
  /-- The listener has not heard of the transition. -/
  | announced (old new : Snapshot)
  /-- The cancellation pass of the listener has not ended. -/
  | narrowing (old new : Snapshot)
  /-- What had to be given up is given up, and nothing is taken up yet. -/
  | bridging (old new : Snapshot)
  /-- The listener has heard that the new snapshot is in effect. -/
  | widened (old new : Snapshot)
deriving DecidableEq

namespace Stage

/-- The snapshots under all of which every armed entry is owned. -/
def bounds : Stage → List Snapshot
  | steady current => [current]
  | announced old _ => [old]
  | narrowing old _ => [old]
  | bridging old new => [old, new]
  | widened _ new => [new]

/-- The newest topology that the gate may have been told of. -/
def frontier : Stage → TopologyId
  | steady current => current.topology
  | announced _ new | narrowing _ new | bridging _ new | widened _ new => new.topology

/-- The segments at which the gate of a node may stand.  Within a cancellation pass it may have been
narrowed already or not. -/
def Gates (node : NodeId) (segments : SegmentSet) : Stage → Prop
  | steady current => segments = current.primarySegments node
  | announced old _ => segments = old.primarySegments node
  | narrowing old new =>
      segments = old.primarySegments node ∨
        segments = (new.primarySegments node).inter (old.primarySegments node)
  | bridging old new => segments = (new.primarySegments node).inter (old.primarySegments node)
  | widened _ new => segments = new.primarySegments node

/-- A gate at its stage lets through only what every bound owns. -/
theorem Gates.mem_bounds {node : NodeId} {segments : SegmentSet} {stage : Stage}
    (hgates : stage.Gates node segments) {segment : SegmentId} (hmem : segment ∈ segments)
    {snapshot : Snapshot} (hbound : snapshot ∈ stage.bounds) :
    segment ∈ snapshot.primarySegments node := by
  cases stage with
  | steady current =>
      rw [List.mem_singleton.mp hbound, ← show segments = _ from hgates]
      exact hmem
  | announced old new =>
      rw [List.mem_singleton.mp hbound, ← show segments = _ from hgates]
      exact hmem
  | narrowing old new =>
      rw [List.mem_singleton.mp hbound]
      rcases hgates with rfl | rfl
      · exact hmem
      · exact (SegmentSet.mem_inter.mp hmem).2
  | bridging old new =>
      rw [show segments = _ from hgates] at hmem
      obtain ⟨hnew, hold⟩ := SegmentSet.mem_inter.mp hmem
      have hside : snapshot = old ∨ snapshot = new := by simpa [bounds] using hbound
      rcases hside with rfl | rfl
      · exact hold
      · exact hnew
  | widened old new =>
      rw [List.mem_singleton.mp hbound, ← show segments = _ from hgates]
      exact hmem

/-- One stage leads to another without a word to the scheduler: a gate and armings that agree with
the first agree with the second. -/
structure Leads (node : NodeId) (before after : Stage) : Prop where
  gates : ∀ segments, before.Gates node segments → after.Gates node segments
  frontier : before.frontier ≤ after.frontier
  bounds : ∀ segment, (∀ snapshot ∈ before.bounds, segment ∈ snapshot.primarySegments node) →
    ∀ snapshot ∈ after.bounds, segment ∈ snapshot.primarySegments node

namespace Leads

variable {node : NodeId} {old new : Snapshot}

/-- A stage leads to itself. -/
theorem refl (stage : Stage) : stage.Leads node stage :=
  ⟨fun _ hgates => hgates, UInt64.le_refl _, fun _ hbounds => hbounds⟩

/-- A transition to a newer snapshot is announced. -/
theorem announced (hnewer : old.topology < new.topology) :
    (steady old).Leads node (announced old new) :=
  ⟨fun _ hgates => hgates, UInt64.le_of_lt hnewer, fun _ hbounds => hbounds⟩

/-- Where nothing is lost, there is nothing to be given up. -/
theorem bridging (hkept : ∀ segment ∈ old.primarySegments node,
    segment ∈ new.primarySegments node) :
    (Stage.announced old new).Leads node (bridging old new) := by
  refine ⟨fun segments hgates => ?_, UInt64.le_refl _, fun segment hbounds => ?_⟩
  · rw [show segments = _ from hgates]
    refine SegmentSet.ext fun segment => ?_
    rw [SegmentSet.mem_inter]
    exact ⟨fun hold => ⟨hkept segment hold, hold⟩, And.right⟩
  · have hold := hbounds old (List.mem_singleton.mpr rfl)
    simpa [Stage.bounds] using And.intro hold (hkept segment hold)

/-- A loss is announced. -/
theorem narrowing : (Stage.announced old new).Leads node (narrowing old new) :=
  ⟨fun _ hgates => Or.inl hgates, UInt64.le_refl _, fun _ hbounds => hbounds⟩

/-- Where nothing is gained, there is nothing to be taken up. -/
theorem widened (hgained : ∀ segment ∈ new.primarySegments node,
    segment ∈ old.primarySegments node) :
    (Stage.bridging old new).Leads node (widened old new) := by
  refine ⟨fun segments hgates => ?_, UInt64.le_refl _, fun segment hbounds => ?_⟩
  · rw [show segments = _ from hgates]
    refine SegmentSet.ext fun segment => ?_
    rw [SegmentSet.mem_inter]
    exact ⟨And.left, fun hnew => ⟨hnew, hgained segment hnew⟩⟩
  · have hnew := hbounds new (by simp [Stage.bounds])
    simpa [Stage.bounds] using hnew

end Leads

end Stage

/-- The stage of a listener in an installation. -/
def Installation.stage {K : Type} (installation : Installation K) (listener : ListenerId) : Stage :=
  let old := installation.transition.old
  let new := installation.transition.new
  if installation.cancelling.isSome then .narrowing old new
  else
    match installation.phase with
    | .pre => if listener ∈ installation.unheard then .announced old new else .bridging old new
    | .post => if listener ∈ installation.unheard then .bridging old new else .widened old new

namespace Installation

variable {K : Type} {installation : Installation K} {listener : ListenerId}

/-- An installation is done when everybody has heard the second announcement. -/
theorem isDone_eq_true : installation.isDone = true ↔
    installation.phase = .post ∧ installation.unheard = [] ∧ installation.cancelling = none := by
  cases hphase : installation.phase <;> simp [isDone, Phase.isPre, hphase]

theorem stage_narrowing {kept : SegmentLocality K} (hcancelling : installation.cancelling = some kept) :
    installation.stage listener =
      .narrowing installation.transition.old installation.transition.new := by
  simp [stage, hcancelling]

theorem stage_announced (hresting : installation.cancelling = none)
    (hphase : installation.phase = .pre) (hunheard : listener ∈ installation.unheard) :
    installation.stage listener =
      .announced installation.transition.old installation.transition.new := by
  simp [stage, hresting, hphase, hunheard]

/-- Before the new snapshot takes effect, the listener stands between the two once it has heard and
its cancellation pass has ended. -/
theorem stage_bridging_of_pre (hresting : installation.cancelling = none)
    (hphase : installation.phase = .pre) (hheard : listener ∉ installation.unheard) :
    installation.stage listener =
      .bridging installation.transition.old installation.transition.new := by
  simp [stage, hresting, hphase, hheard]

/-- After the new snapshot took effect, the listener stands between the two until it hears. -/
theorem stage_bridging_of_post (hresting : installation.cancelling = none)
    (hphase : installation.phase = .post) (hunheard : listener ∈ installation.unheard) :
    installation.stage listener =
      .bridging installation.transition.old installation.transition.new := by
  simp [stage, hresting, hphase, hunheard]

theorem stage_widened (hresting : installation.cancelling = none)
    (hphase : installation.phase = .post) (hheard : listener ∉ installation.unheard) :
    installation.stage listener =
      .widened installation.transition.old installation.transition.new := by
  simp [stage, hresting, hphase, hheard]

end Installation

namespace Node

variable {K : Type}

/-- The stage of a node. -/
def stage (node : Node K) : Stage :=
  match node.installation, node.registration with
  | some installation, some listener => installation.stage listener
  | _, _ => .steady node.notifier.current

/-- The listener of a node is registered, once, and everybody else who is registered only looks
on. -/
structure Listening (node : Node K) (listener : ListenerId) : Prop where
  registered : node.registration = some listener
  listed : listener ∈ node.notifier.listeners
  once : node.notifier.listeners.Nodup
  only : ∀ other ∈ node.notifier.listeners, other ∉ node.observers → other = listener
  own : listener ∉ node.observers

/-- An installation belongs to its node: it leads from or to the snapshot in effect, and whoever is
registered hears of it, each in turn. -/
structure Installing (node : Node K) (installation : Installation K) : Prop where
  localNode : installation.transition.localNode = node.localNode
  newer : installation.transition.old.topology < installation.transition.new.topology
  current : node.notifier.current =
    match installation.phase with
    | .pre => installation.transition.old
    | .post => installation.transition.new
  audience : installation.transition.audience = node.notifier.listeners
  unheard : installation.unheard <:+ node.notifier.listeners
  cancelling : ∀ kept, installation.cancelling = some kept →
    installation.phase = .pre ∧
      kept = (SegmentLocality.ofSnapshot node.listener.partitioner installation.transition.new
        node.localNode).keptSince
          (.ofSnapshot node.listener.partitioner installation.transition.old node.localNode) ∧
      ∀ listener, node.registration = some listener → listener ∉ installation.unheard

/-- Gate and armings of a node agree with its stage. -/
structure Aligned (node : Node K) : Prop where
  listening : ∃ listener, node.Listening listener
  installing : ∀ installation, node.installation = some installation → node.Installing installation
  gate : ∃ locality, node.scheduler.gate.locality = .segments locality ∧
    locality.partitioner = node.listener.partitioner ∧
    node.stage.Gates node.localNode locality.segments
  topology : ∃ topology, node.scheduler.gate.topology = some topology ∧
    topology ≤ node.stage.frontier
  armed : ∀ arming ∈ node.scheduler.armed, ∀ snapshot ∈ node.stage.bounds,
    node.listener.partitioner.segmentOf arming.id ∈ snapshot.primarySegments node.localNode

/-- The stage of a node that is installing something is that of its listener. -/
theorem stage_of_installing {node : Node K} {listener : ListenerId}
    (hlistening : node.Listening listener) {installation : Installation K}
    (hinstalling : node.installation = some installation) :
    node.stage = installation.stage listener := by
  simp [stage, hlistening.registered, hinstalling]

/-- A node that is installing nothing is steady. -/
theorem stage_of_idle {node : Node K} (hidle : node.installation = none) :
    node.stage = .steady node.notifier.current := by
  simp [stage, hidle]

/-- The snapshot in effect is always among the bounds. -/
theorem Aligned.current_mem_bounds {node : Node K} (haligned : node.Aligned) :
    node.notifier.current ∈ node.stage.bounds := by
  obtain ⟨listener, hlistening⟩ := haligned.listening
  cases hinstalling : node.installation with
  | none => simp [stage_of_idle hinstalling, Stage.bounds]
  | some installation =>
      have hcurrent := (haligned.installing installation hinstalling).current
      rw [stage_of_installing hlistening hinstalling, Installation.stage]
      cases hcancelling : installation.cancelling with
      | some kept =>
          have hphase := ((haligned.installing installation hinstalling).cancelling kept
            hcancelling).1
          simp [hcurrent, hphase, Stage.bounds]
      | none =>
          cases hphase : installation.phase <;> rw [hphase] at hcurrent <;>
            by_cases hunheard : listener ∈ installation.unheard <;>
              simp [hcurrent, hunheard, Stage.bounds]

/-- An entry that the gate owns lies within every bound. -/
theorem Aligned.mem_bounds_of_owns {node : Node K} (haligned : node.Aligned) {id : K}
    (howns : node.scheduler.gate.locality.owns id = true) {snapshot : Snapshot}
    (hbound : snapshot ∈ node.stage.bounds) :
    node.listener.partitioner.segmentOf id ∈ snapshot.primarySegments node.localNode := by
  obtain ⟨locality, hgate, hpartitioner, hsegments⟩ := haligned.gate
  rw [hgate] at howns
  have hmem : node.listener.partitioner.segmentOf id ∈ locality.segments := by
    rw [← hpartitioner]
    exact SegmentSet.contains_eq_true.mp howns
  exact hsegments.mem_bounds hmem hbound

end Node

end Custody
