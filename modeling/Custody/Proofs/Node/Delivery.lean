/-
# Announcements to an idle listener

When the executor of a node has no work left and the store answers at once, an announcement to the
listener is over by the time the node comes to rest: a cancellation pass has swept the scheduler, or a
scheduling pass has gone through everything that the store lists, and the handle has its outcome.
What the scheduler goes through then depends on the announcement and the stored entries alone.

An announcement may come out of turn, and it may come again.  The two announcements of a transition,
delivered a second time, leave the node with the same gate and the same entries armed.
-/

import Custody.Node.Basic
import Custody.Proofs.Executor.Rest
import Custody.Proofs.Scheduler.Coverage
import Custody.Proofs.Scheduler.Replay

namespace Custody

/-- An enumeration of a store that answers goes on at once and does not fail. -/
structure Store.Answers {K : Type} (store : Store K) : Prop where
  playing : store.paused = false
  unfailing : store.failure = none

namespace Node

variable {K : Type}

/-- A node whose cancellation pass for a loss has ended. -/
def swept (node : Node K) (kept : SegmentLocality K) : Node K :=
  { node with
    listener := node.listener.beginLoss.endLoss kept .zero
    scheduler := (node.scheduler.cancelUnowned kept.topology (.segments kept)).2 }

/-- A node at which a gain decides, before a pass is accepted for it. -/
def widened (node : Node K) (new : SegmentLocality K) : Node K :=
  { node with
    listener :=
      { node.listener with
        executor := node.listener.executor.cancelCurrent.2
        metrics := node.listener.metrics.setOwned new.segments.size }
    scheduler := (node.scheduler.install new.topology (.segments new)).2 }

section React

variable {node : Node K} {event : TopologyEvent}

theorem react_of_unchanged
    (hchange : OwnershipChange.ofEvent node.listener.partitioner event = .unchanged) :
    node.react event = (Handle.ready .noop, node) := by
  simp only [react, Listener.react, hchange]

theorem react_of_losing {kept : SegmentLocality K} {lost : SegmentSet}
    (hchange : OwnershipChange.ofEvent node.listener.partitioner event = .losing kept lost) :
    node.react event =
      (Listener.lossHandle (some
        ⟨(node.scheduler.cancelUnowned kept.topology (.segments kept)).1, .zero⟩),
      node.swept kept) := by
  simp only [react, Listener.react, hchange, Listener.runLoss, tasks]
  rfl

/-- An executor without work accepts the pass for a gain. -/
theorem react_of_gained {old new : SegmentLocality K} {segments : SegmentSet}
    (hchange : OwnershipChange.ofEvent node.listener.partitioner event = .gained old new segments)
    (hvacant : node.listener.executor.Vacant) :
    node.react event =
      (Handle.waiting (.scheduling (node.widened new).listener.executor.nextId),
      (node.widened new).withExecutor
        ((node.widened new).listener.executor.join (.waiting old new))) := by
  have hnext : (node.widened new).listener.executor.nextId = node.listener.executor.nextId := by
    rw [widened, hvacant.cancelCurrent_eq]
  rw [hnext]
  simp only [react, Listener.react, hchange, Listener.takeUp, tasks, hvacant.submit_eq]
  rfl

end React

variable [DecidableEq K] {node : Node K}

/-- A pass that nothing holds up goes through all that the store lists of what was gained. -/
theorem goOn_waiting {store : Store K} (hanswers : store.Answers) (old new : SegmentLocality K)
    (scheduler : Scheduler K) :
    ∃ later, goOn false (.waiting old new) (scheduler, store) =
        (.inr (scheduler.placeGained store.entries old new).1,
          (scheduler.placeGained store.entries old new).2, later) ∧
      later.Answers ∧ later.entries = store.entries := by
  by_cases hnothing : (new.gainedSince old).segments.isEmpty = true
  · have hnone : (new.gainedSince old).candidates store.entries = [] := by
      apply List.filter_eq_nil_iff.mpr
      intro entry _ howns
      have hout := SegmentSet.not_contains_of_isEmpty hnothing
        (new.partitioner.segmentOf entry.id)
      exact Bool.false_ne_true (hout.symm.trans howns)
    refine ⟨store, ?_, hanswers, rfl⟩
    simp [goOn, SchedulingPass.start, hnothing, SchedulingPass.finish, Scheduler.placeGained, hnone,
      Scheduler.placeAll]
  · let begun := store.beginEnumeration
    have hbegun : begun.Answers := ⟨hanswers.playing, hanswers.unfailing⟩
    have hanswer : begun.answer (new.gainedSince old) =
        (.ok (((new.gainedSince old).candidates store.entries).map .ok), begun) :=
      SchedulingPass.answer_eq hbegun.unfailing _
    refine ⟨begun, ?_, hbegun, rfl⟩
    simp [goOn, SchedulingPass.start, hnothing, begun, hbegun.playing, hanswer,
      SchedulingPass.answer, SchedulingPass.finish, Scheduler.placeGained]

/-- A node comes to rest when its executor does, and then the timers fire that are due. -/
theorem settle_eq (node : Node K) {executor : Executor (SchedulingPass K)}
    {scheduler : Scheduler K} {store : Store K}
    (hsettle : node.listener.executor.settle goOn (node.scheduler, node.store) =
      (executor, scheduler, store)) :
    node.settle =
      { node.withExecutor executor with scheduler := scheduler.fireDue, store := store } := by
  unfold settle
  rw [hsettle]

/-- A node whose executor is open, idle and without work, and whose store answers at once. -/
structure Poised (node : Node K) : Prop where
  vacant : node.listener.executor.Vacant
  answers : node.store.Answers

omit [DecidableEq K] in
theorem Poised.swept (hpoised : node.Poised) (kept : SegmentLocality K) :
    (node.swept kept).Poised :=
  ⟨hpoised.vacant.cancelCurrent, hpoised.answers⟩

omit [DecidableEq K] in
theorem Poised.widened (hpoised : node.Poised) (new : SegmentLocality K) :
    (node.widened new).Poised :=
  ⟨hpoised.vacant.cancelCurrent, hpoised.answers⟩

theorem Poised.settle_eq (hpoised : node.Poised) :
    node.settle = { node with scheduler := node.scheduler.fireDue } :=
  node.settle_eq (hpoised.vacant.settle goOn _)

/-- The pass that was accepted last is over when the node has come to rest. -/
theorem Poised.settle_join (hpoised : node.Poised) (old new : SegmentLocality K) :
    ∃ executor store,
      (node.withExecutor (node.listener.executor.join (.waiting old new))).settle =
        { node.withExecutor executor with
          scheduler := (node.scheduler.placeGained node.store.entries old new).2.fireDue
          store := store } ∧
      executor.Vacant ∧ store.Answers ∧ store.entries = node.store.entries ∧
      executor.resolved = node.listener.executor.resolved ++
        [(node.listener.executor.nextId,
          .ofResult (node.scheduler.placeGained node.store.entries old new).1)] := by
  obtain ⟨store, hgoOn, hanswers, hentries⟩ := goOn_waiting hpoised.answers old new node.scheduler
  obtain ⟨executor, hsettle, hvacant, hresolved⟩ := hpoised.vacant.settle_join hgoOn
  exact ⟨executor, store, Node.settle_eq _ hsettle, hvacant, hanswers, hentries, hresolved⟩

/-- The listener alone hears an announcement, and whoever made it waits for what the handle brings. -/
def deliver (node : Node K) (event : TopologyEvent) : Option Outcome × Node K :=
  let (handle, node) := node.react event
  let node := node.settle
  ((handle.receive node.listener.executor).poll.1, node)

/-- The listener alone hears both announcements of a transition to a node, the second when the first
is over. -/
def deliverBoth (node : Node K) (old new : Snapshot) (localNode : NodeId) :
    List (Option Outcome) × Node K :=
  let (first, node) := node.deliver ⟨.pre, old, new, localNode⟩
  let (second, node) := node.deliver ⟨.post, old, new, localNode⟩
  ([first, second], node)

/-- What a delivery to a poised node comes to: an outcome has arrived, the node is poised again, and
the scheduler has gone through the announcement. -/
structure Delivered (node : Node K) (event : TopologyEvent) (outcome : Option Outcome)
    (after : Node K) : Prop where
  arrived : outcome.isSome = true
  poised : after.Poised
  entries : after.store.entries = node.store.entries
  partitioner : after.listener.partitioner = node.listener.partitioner
  scheduler : after.scheduler =
    (node.scheduler.undergo node.store.entries (.ofEvent node.listener.partitioner event)).fireDue

omit [DecidableEq K] in
theorem poll_receive {executor : Executor (SchedulingPass K)} {id : PassId} {outcome : Outcome}
    (hended : executor.outcomeOf id = some outcome) :
    ((Handle.waiting (.scheduling id)).receive executor).poll.1 = some outcome := by
  simp [Handle.receive, Handle.waiting, hended, Handle.send, Channel.send, Handle.poll, Channel.poll]

theorem Poised.deliver_of_unchanged (hpoised : node.Poised) {event : TopologyEvent}
    (hchange : OwnershipChange.ofEvent node.listener.partitioner event = .unchanged) :
    node.deliver event = (some .noop, { node with scheduler := node.scheduler.fireDue }) := by
  simp only [Node.deliver, react_of_unchanged hchange, hpoised.settle_eq]
  rfl

theorem Poised.deliver_of_losing (hpoised : node.Poised) {event : TopologyEvent}
    {kept : SegmentLocality K} {lost : SegmentSet}
    (hchange : OwnershipChange.ofEvent node.listener.partitioner event = .losing kept lost) :
    node.deliver event =
      (some (.cancelled (node.scheduler.cancelUnowned kept.topology (.segments kept)).1),
        { node.swept kept with scheduler := (node.swept kept).scheduler.fireDue }) := by
  simp only [Node.deliver, react_of_losing hchange, (hpoised.swept kept).settle_eq]
  rfl

/-- The pass for a gain has gone through what is stored.  The outcome is that of this pass, unless
an outcome was there already under its number. -/
theorem Poised.deliver_of_gained (hpoised : node.Poised) {event : TopologyEvent}
    {old new : SegmentLocality K} {segments : SegmentSet}
    (hchange : OwnershipChange.ofEvent node.listener.partitioner event = .gained old new segments) :
    let placed := (node.widened new).scheduler.placeGained node.store.entries old new
    ∃ outcome executor store, node.deliver event =
        (some outcome, { (node.widened new).withExecutor executor with
          scheduler := placed.2.fireDue, store := store }) ∧
      executor.Vacant ∧ store.Answers ∧ store.entries = node.store.entries ∧
      (node.listener.executor.nextId ∉ node.listener.executor.resolved.map (·.1) →
        outcome = .ofResult placed.1) := by
  intro placed
  obtain ⟨executor, store, hsettle, hvacant, hanswers, hentries, hresolved⟩ :=
    (hpoised.widened new).settle_join old new
  obtain ⟨outcome, houtcome⟩ := Executor.exists_outcomeOf hresolved
  have hnobody : (node.widened new).listener.executor =
      { node.listener.executor with current := none } := hpoised.vacant.cancelCurrent_eq
  refine ⟨outcome, executor, store, ?_, hvacant, hanswers, hentries, fun hfresh => ?_⟩
  · simp only [Node.deliver, react_of_gained hchange hpoised.vacant, hsettle]
    rw [← poll_receive houtcome]
    rfl
  · have hown := Executor.outcomeOf_of_fresh (hnobody ▸ hfresh) hresolved
    exact Option.some.inj (houtcome.symm.trans hown)

theorem Poised.deliver (hpoised : node.Poised) (event : TopologyEvent) :
    node.Delivered event (node.deliver event).1 (node.deliver event).2 := by
  cases hchange : OwnershipChange.ofEvent node.listener.partitioner event with
  | unchanged =>
      rw [hpoised.deliver_of_unchanged hchange]
      exact ⟨rfl, ⟨hpoised.vacant, hpoised.answers⟩, rfl, rfl, by rw [hchange]; rfl⟩
  | losing kept lost =>
      have hswept := hpoised.swept kept
      rw [hpoised.deliver_of_losing hchange]
      exact ⟨rfl, ⟨hswept.vacant, hswept.answers⟩, rfl, rfl, by rw [hchange]; rfl⟩
  | gained old new segments =>
      obtain ⟨outcome, executor, store, hdeliver, hvacant, hanswers, hentries, -⟩ :=
        hpoised.deliver_of_gained hchange
      rw [hdeliver]
      exact ⟨rfl, ⟨hvacant, hanswers⟩, hentries, rfl, by rw [hchange]; rfl⟩

/-- Both announcements of a transition are over one after the other. -/
theorem Poised.deliverBoth (hpoised : node.Poised) (old new : Snapshot) (localNode : NodeId) :
    (∀ outcome ∈ (node.deliverBoth old new localNode).1, outcome.isSome = true) ∧
      (node.deliverBoth old new localNode).2.Poised ∧
      (node.deliverBoth old new localNode).2.store.entries = node.store.entries ∧
      (node.deliverBoth old new localNode).2.listener.partitioner = node.listener.partitioner ∧
      (node.deliverBoth old new localNode).2.scheduler =
        node.scheduler.undergoBoth node.store.entries node.listener.partitioner old new
          localNode := by
  have hfirst := hpoised.deliver ⟨.pre, old, new, localNode⟩
  have hsecond := hfirst.poised.deliver ⟨.post, old, new, localNode⟩
  simp only [Node.deliverBoth]
  refine ⟨?_, hsecond.poised, hsecond.entries.trans hfirst.entries,
    hsecond.partitioner.trans hfirst.partitioner, ?_⟩
  · intro outcome hmem
    rcases List.mem_cons.mp hmem with rfl | hrest
    · exact hfirst.arrived
    · obtain rfl := List.mem_singleton.mp hrest
      exact hsecond.arrived
  · have hafter := hsecond.scheduler
    rw [hfirst.entries, hfirst.partitioner, hfirst.scheduler] at hafter
    exact hafter

/-- When the executor of a node is open, idle and without work, the store answers at once and every
stored deadline lies ahead, then each handle of a transition brings an outcome, also when the
transition is delivered a second time; and the second delivery leaves the gate, and the armed entries
with their deadlines, as they were after the first.  Where the gate stood before, what was armed, and
whether the scheduler was shut down does not matter.  A scheduler that was accounted for has a timer
for each armed entry after both deliveries. -/
theorem deliverBoth_deliverBoth (hpoised : node.Poised)
    (hstored : ∀ entry ∈ node.store.entries, node.scheduler.now < entry.deadline)
    (old new : Snapshot) (localNode : NodeId) :
    let first := node.deliverBoth old new localNode
    let second := first.2.deliverBoth old new localNode
    (∀ outcome ∈ first.1 ++ second.1, outcome.isSome = true) ∧
      second.2.scheduler.Alike first.2.scheduler ∧
      (node.scheduler.Accounted → first.2.scheduler.Timed ∧ second.2.scheduler.Timed) := by
  dsimp only
  obtain ⟨harrived, hagain, hentries, hpartitioner, hscheduler⟩ :=
    hpoised.deliverBoth old new localNode
  obtain ⟨harrived', -, -, -, hscheduler'⟩ := hagain.deliverBoth old new localNode
  rw [hentries, hpartitioner] at hscheduler'
  generalize node.deliverBoth old new localNode = first at *
  generalize first.2.deliverBoth old new localNode = second at *
  refine ⟨fun outcome hmem => ?_, ?_, fun haccounted => ?_⟩
  · rcases List.mem_append.mp hmem with hbefore | hlater
    · exact harrived outcome hbefore
    · exact harrived' outcome hlater
  · rw [hscheduler', hscheduler]
    exact node.scheduler.undergoBoth_undergoBoth _ _ old new localNode hstored
  · obtain ⟨hfirst, htimed⟩ :=
      haccounted.undergoBoth node.store.entries node.listener.partitioner old new localNode
    rw [← hscheduler] at hfirst htimed
    obtain ⟨-, htimed'⟩ :=
      hfirst.undergoBoth node.store.entries node.listener.partitioner old new localNode
    rw [← hscheduler'] at htimed'
    exact ⟨htimed, htimed'⟩

/-- A node that was told of no topology and has entries of two segments armed. -/
def untoldNode : Node UInt64 where
  notifier := .new 0 (.empty 1 4)
  listener := ⟨.modulo 4, { segmentCount := 4 }, .new "worker", {}⟩
  scheduler := (((Scheduler.new 0).schedule 0 40).2.schedule 1 50).2
  store := { entries := [⟨0, 40⟩, ⟨1, 50⟩, ⟨2, 60⟩, ⟨6, 70⟩] }
  registration := none
  observers := []
  seen := []
  installation := none

/-- Its scheduler came about by two requests. -/
theorem accounted_untoldNode : untoldNode.scheduler.Accounted :=
  ((Scheduler.Changes.schedule _ 0 40).trans (.schedule _ 1 50)).accounted
    (Scheduler.accounted_new 0)

/-- The node loses segment 0 and gains segment 2, and then it hears of both once more. -/
theorem deliverBoth_deliverBoth_untoldNode :
    ∃ old new : Snapshot,
      let first := untoldNode.deliverBoth old new 0
      let second := first.2.deliverBoth old new 0
      (∀ outcome ∈ first.1 ++ second.1, outcome.isSome = true) ∧
        second.2.scheduler.Alike first.2.scheduler ∧
        first.2.scheduler.Timed ∧ second.2.scheduler.Timed ∧
        first.2.scheduler.entries = [⟨1, 50⟩, ⟨2, 60⟩, ⟨6, 70⟩] := by
  let old := Snapshot.ofParts 1 [0, 1] [[0], [0], [1], [1]]
  let new := Snapshot.ofParts 2 [0, 1] [[1], [0], [0], [1]]
  have hpoised : untoldNode.Poised := ⟨⟨rfl, rfl, rfl⟩, rfl, rfl⟩
  obtain ⟨harrived, halike, htimed⟩ := deliverBoth_deliverBoth hpoised (by decide) old new 0
  obtain ⟨hfirst, hsecond⟩ := htimed accounted_untoldNode
  exact ⟨old, new, harrived, halike, hfirst, hsecond, by decide +kernel⟩

end Node

end Custody
