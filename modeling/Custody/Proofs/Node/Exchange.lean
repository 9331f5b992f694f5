/-
# What one transition does to a node at rest

A node at rest takes a transition in one piece.  It gives up exactly what it has armed in the segments
that it loses and arms exactly what is stored in the segments that it gains; everything else stays
armed as it was, to the same deadlines and under the same numbers.  Nothing of what is gained is
skipped, since a node at rest has nothing armed outside the segments that it owned before.
-/

import Custody.Node.Session
import Custody.Proofs.Node.Delivery
import Custody.Proofs.Node.LeftBehind
import Custody.Proofs.Node.Regular
import Custody.Proofs.Node.Sessions

namespace Custody

variable {K : Type}

namespace Scheduler

/-- A pass arms everything that it lists when nothing of what was gained is armed. -/
theorem placeGained_of_free [DecidableEq K] (scheduler : Scheduler K)
    {old new : SegmentLocality K} {stored : List (Candidate K)}
    (hopen : scheduler.closed = false) (hgate : scheduler.gate.locality = .segments new)
    (hfree : ∀ arming ∈ scheduler.armed, (new.gainedSince old).owns arming.id = false)
    (hdistinct : (stored.map (·.id)).Nodup) :
    let offered := (new.gainedSince old).candidates stored
    let count := UInt64.ofNat offered.length
    (scheduler.placeGained stored old new).1 = .ok ⟨count, count, 0, false⟩ ∧
      ∃ added, (scheduler.placeGained stored old new).2.armed = scheduler.armed ++ added ∧
        added.map Arming.candidate = offered := by
  intro offered count
  have htakes : ∀ candidate ∈ offered, scheduler.Takes (new.gainedSince old) candidate := by
    intro candidate hmem
    have hgained : (new.gainedSince old).owns candidate.id = true := (List.mem_filter.mp hmem).2
    refine ⟨hopen, hgained, ?_, ?_⟩
    · rw [hgate]
      apply SegmentSet.contains_eq_true.mpr
      exact (SegmentSet.mem_diff.mp (SegmentSet.contains_eq_true.mp hgained)).1
    · apply eq_false_of_ne_true
      intro hcontains
      obtain ⟨arming, harmed, hid⟩ := contains_eq_true.mp hcontains
      have hout := hfree arming harmed
      rw [hid, hgained] at hout
      exact Bool.noConfusion hout
  have hoffered : (offered.map (·.id)).Nodup := hdistinct.sublist (List.filter_sublist.map _)
  obtain ⟨after, added, hplaced, harmed, hadded⟩ := placeAll_of_takes offered htakes hoffered {}
  have hwhole : scheduler.placeGained stored old new =
      (.ok ⟨0 + count, 0 + count, 0, false⟩, after) := hplaced
  rw [hwhole, UInt64.zero_add]
  exact ⟨rfl, added, harmed, hadded⟩

end Scheduler

namespace Node

/-- The segments that a node owns under the snapshot in effect and under the next. -/
def segmentsKept (node : Node K) (next : Snapshot) : SegmentSet :=
  (next.primarySegments node.localNode).inter (node.notifier.current.primarySegments node.localNode)

/-- The segments that it owns under the snapshot in effect and not under the next. -/
def segmentsLost (node : Node K) (next : Snapshot) : SegmentSet :=
  (node.notifier.current.primarySegments node.localNode).diff (next.primarySegments node.localNode)

/-- The segments that it owns under the next snapshot only. -/
def segmentsGained (node : Node K) (next : Snapshot) : SegmentSet :=
  (next.primarySegments node.localNode).diff (node.notifier.current.primarySegments node.localNode)

/-- What a node has armed in some segments. -/
def armedIn (node : Node K) (segments : SegmentSet) : List (Arming K) :=
  node.scheduler.armed.filter fun arming =>
    segments.contains (node.listener.partitioner.segmentOf arming.id)

/-- What is stored in some segments. -/
def storedIn (node : Node K) (segments : SegmentSet) : List (Candidate K) :=
  node.store.entries.filter fun entry =>
    segments.contains (node.listener.partitioner.segmentOf entry.id)

/-- Everything that is armed lies in some segments. -/
def ArmsIn (node : Node K) (segments : SegmentSet) : Prop :=
  ∀ arming ∈ node.scheduler.armed, node.listener.partitioner.segmentOf arming.id ∈ segments

theorem armedIn_of_isEmpty (node : Node K) {segments : SegmentSet}
    (hempty : segments.isEmpty = true) : node.armedIn segments = [] := by
  apply List.filter_eq_nil_iff.mpr
  intro arming _
  rw [SegmentSet.not_contains_of_isEmpty hempty]
  exact Bool.false_ne_true

theorem storedIn_of_isEmpty (node : Node K) {segments : SegmentSet}
    (hempty : segments.isEmpty = true) : node.storedIn segments = [] := by
  apply List.filter_eq_nil_iff.mpr
  intro entry _
  rw [SegmentSet.not_contains_of_isEmpty hempty]
  exact Bool.false_ne_true

/-- A node that loses nothing keeps all that it has armed. -/
theorem ArmsIn.armedIn_kept {node : Node K} {next : Snapshot}
    (harms : node.ArmsIn (node.notifier.current.primarySegments node.localNode))
    (hall : (next.primarySegments node.localNode).includes
      (node.notifier.current.primarySegments node.localNode) = true) :
    node.armedIn (node.segmentsKept next) = node.scheduler.armed := by
  apply List.filter_eq_self.mpr
  intro arming hmem
  have hold := harms arming hmem
  apply SegmentSet.contains_eq_true.mpr
  exact SegmentSet.mem_inter.mpr ⟨SegmentSet.includes_eq_true.mp hall _ hold, hold⟩

/-- Of what a node has armed, it loses what it does not keep. -/
theorem ArmsIn.filter_not_kept {node : Node K} {next : Snapshot}
    (harms : node.ArmsIn (node.notifier.current.primarySegments node.localNode)) :
    (node.scheduler.armed.filter fun arming =>
      !(node.segmentsKept next).contains (node.listener.partitioner.segmentOf arming.id)) =
      node.armedIn (node.segmentsLost next) := by
  apply List.filter_congr
  intro arming hmem
  have hold := harms arming hmem
  rw [Bool.eq_iff_iff, Bool.not_eq_true', SegmentSet.contains_eq_false, SegmentSet.contains_eq_true,
    segmentsKept, SegmentSet.mem_inter, segmentsLost, SegmentSet.mem_diff]
  constructor
  · intro hout
    exact ⟨hold, fun hnew => hout ⟨hnew, hold⟩⟩
  · intro hlost hkept
    exact hlost.2 hkept.1

/-- A node whose listener has heard the first announcement of a transition and at which the new
snapshot has taken effect. -/
def switched (node : Node K) (next : Snapshot) : Node K :=
  { (node.react ⟨.pre, node.notifier.current, next, node.localNode⟩).2 with
    notifier := { node.notifier with current := next } }

theorem advanceInstallBy_add (first second : Nat) (node : Node K) :
    node.advanceInstallBy (first + second) =
      (node.advanceInstallBy first).advanceInstallBy second := by
  induction first generalizing node with
  | zero => rw [Nat.zero_add, advanceInstallBy]
  | succ first ih => rw [Nat.succ_add, advanceInstallBy, advanceInstallBy, ih]

/-- A listener that does not look on hears an announcement that asks for no loss in one step. -/
theorem hear_eq_react (node : Node K) {installation : Installation K} {id : ListenerId}
    (hown : id ∉ node.observers) (unheard : List ListenerId)
    (hkeeps : ∀ kept lost, OwnershipChange.ofEvent node.listener.partitioner
      (installation.transition.event installation.phase) ≠ .losing kept lost) :
    node.hear installation id unheard =
      { (node.react (installation.transition.event installation.phase)).2 with
        installation := some { installation with
          unheard := unheard
          handles := installation.handles ++
            [(node.react (installation.transition.event installation.phase)).1] } } := by
  cases hchange : OwnershipChange.ofEvent node.listener.partitioner
      (installation.transition.event installation.phase) with
  | unchanged => simp [hear, hown, react, Listener.react, hchange]
  | losing kept lost => exact absurd hchange (hkeeps kept lost)
  | gained old new segments => simp [hear, hown, react, Listener.react, hchange]

/-- It hears of a loss, and then its cancellation pass runs. -/
theorem hear_losing (node : Node K) {installation : Installation K} {id : ListenerId}
    (hown : id ∉ node.observers) (unheard : List ListenerId) {kept : SegmentLocality K}
    {lost : SegmentSet} (hchange : OwnershipChange.ofEvent node.listener.partitioner
      (installation.transition.event installation.phase) = .losing kept lost)
    (hresting : installation.cancelling = none) :
    (node.hear installation id unheard).advanceInstall =
      { (node.react (installation.transition.event installation.phase)).2 with
        installation := some { installation with unheard := unheard } } := by
  rw [react_of_losing hchange]
  simp [hear, hown, hchange, advanceInstall, Listener.runLoss, tasks, swept, hresting]

/-- The first announcement to an only listener takes one step, or two when something is lost. -/
theorem advance_announced (node : Node K) (listener : ListenerId)
    (hunobserved : node.observers = []) (transition : Transition) :
    ∃ steps handles, steps ≤ 1 ∧
      ({ node with installation := some ⟨transition, .pre, [listener], none, []⟩ } :
        Node K).advanceInstallBy (steps + 1) =
      { (node.react (transition.event .pre)).2 with
        installation := some ⟨transition, .pre, [], none, handles⟩ } := by
  have hown : listener ∉ node.observers := hunobserved ▸ List.not_mem_nil
  let begun : Node K :=
    { node with installation := some ⟨transition, .pre, [listener], none, []⟩ }
  have hhear : begun.advanceInstall =
      begun.hear ⟨transition, .pre, [listener], none, []⟩ listener [] := rfl
  by_cases hloses : ∃ kept lost, OwnershipChange.ofEvent node.listener.partitioner
      (transition.event .pre) = .losing kept lost
  · obtain ⟨kept, lost, hchange⟩ := hloses
    refine ⟨1, [], Nat.le_refl _, ?_⟩
    show begun.advanceInstall.advanceInstall = _
    rw [hhear, begun.hear_losing hown [] hchange rfl]
    rfl
  · refine ⟨0, [(node.react (transition.event .pre)).1], Nat.zero_le _, ?_⟩
    show begun.advanceInstall = _
    rw [hhear, begun.hear_eq_react hown []]
    · rfl
    · intro kept lost hchange
      exact hloses ⟨kept, lost, hchange⟩

/-- The second announcement takes one step. -/
theorem advance_second (node : Node K) (listener : ListenerId) (hunobserved : node.observers = [])
    (transition : Transition) :
    ({ node with installation := some ⟨transition, .post, [listener], none, []⟩ } :
        Node K).advanceInstall =
      { (node.react (transition.event .post)).2 with
        installation := some ⟨transition, .post, [], none,
          [(node.react (transition.event .post)).1]⟩ } := by
  have hown : listener ∉ node.observers := hunobserved ▸ List.not_mem_nil
  let begun : Node K :=
    { node with installation := some ⟨transition, .post, [listener], none, []⟩ }
  have hhear : begun.advanceInstall =
      begun.hear ⟨transition, .post, [listener], none, []⟩ listener [] := rfl
  show begun.advanceInstall = _
  rw [hhear, begun.hear_eq_react hown []]
  · rfl
  · intro kept lost hchange
    cases (OwnershipChange.of_losing hchange).1

/-- A node with an only listener installs a newer snapshot by having that listener hear both
announcements, the second when the snapshot is in effect. -/
theorem install_of_lone {node : Node K} {listener : ListenerId} {next : Snapshot}
    (hlone : node.notifier.listeners = [listener]) (hunobserved : node.observers = [])
    (hidle : node.installation = none) (hnewer : node.notifier.topology < next.topology) :
    node.install next =
      .ok ([((node.switched next).react
          ⟨.post, node.notifier.current, next, node.localNode⟩).1],
        ((node.switched next).react ⟨.post, node.notifier.current, next, node.localNode⟩).2) := by
  let transition : Transition := ⟨node.notifier.current, next, node.localNode, [listener]⟩
  have hbegin : node.beginInstall next =
      .ok { node with installation := some ⟨transition, .pre, [listener], none, []⟩ } := by
    simp [beginInstall, Notifier.propose, UInt64.not_le.mpr hnewer, Except.map, hlone, transition,
      localNode]
  obtain ⟨steps, handles, hsteps, hfirst⟩ := node.advance_announced listener hunobserved transition
  have happly : ({ (node.react (transition.event .pre)).2 with
      installation := some ⟨transition, .pre, [], none, handles⟩ } : Node K).advanceInstall =
      { node.switched next with
        installation := some ⟨transition, .post, [listener], none, []⟩ } := rfl
  have hsecond := (node.switched next).advance_second listener hunobserved transition
  -- Whatever steps are left over find the installation done.
  have hall : 3 * node.notifier.listeners.length + 1 = (steps + 1) + (2 + (1 - steps)) := by
    rw [hlone, List.length_singleton]
    omega
  have hover : { ((node.switched next).react (transition.event .post)).2 with
      installation := none } = ((node.switched next).react (transition.event .post)).2 := by
    rw [← hidle]
    rfl
  simp only [install, hbegin, Except.map]
  rw [hall, advanceInstallBy_add, hfirst, advanceInstallBy_add, advanceInstallBy, advanceInstallBy,
    advanceInstallBy, happly, hsecond, advanceInstallBy_of_isDone rfl rfl]
  simp only [endInstall]
  exact congrArg (fun after => Except.ok ([_], after)) hover

section Announced

variable [DecidableEq K] {node : Node K}

/-- What the first announcement of a transition leaves of a node: it is as poised as before, and what
it loses is no longer armed. -/
structure Relieved (node : Node K) (next : Snapshot) (after : Node K) : Prop where
  current : after.notifier.current = next
  poised : after.Poised
  partitioner : after.listener.partitioner = node.listener.partitioner
  store : after.store = node.store
  now : after.scheduler.now = node.scheduler.now
  closed : after.scheduler.closed = node.scheduler.closed
  ahead : after.scheduler.TimersAhead
  accepts : ∀ current, after.scheduler.gate.topology = some current → current ≤ next.topology
  armed : after.scheduler.armed = node.armedIn (node.segmentsKept next)
  cancelled : after.scheduler.metrics.cancelled = node.scheduler.metrics.cancelled +
    UInt64.ofNat (node.armedIn (node.segmentsLost next)).length
  passes : after.listener.metrics.cancelPasses.count =
    node.listener.metrics.cancelPasses.count + if (node.segmentsLost next).isEmpty then 0 else 1
  resolved : after.listener.executor.resolved = node.listener.executor.resolved
  nextId : after.listener.executor.nextId = node.listener.executor.nextId
  changes : node.scheduler.Changes after.scheduler

/-- A node that has armed only what it owns loses nothing else by the first announcement. -/
theorem Poised.relieved (hpoised : node.Poised) (hahead : node.scheduler.TimersAhead)
    {next : Snapshot}
    (haccepts : ∀ current, node.scheduler.gate.topology = some current → current ≤ next.topology)
    (harms : node.ArmsIn (node.notifier.current.primarySegments node.localNode)) :
    node.Relieved next (node.switched next) := by
  let old := node.notifier.current
  by_cases hall : (next.primarySegments node.localNode).includes
      (old.primarySegments node.localNode) = true
  · have hchange : OwnershipChange.ofEvent node.listener.partitioner
        ⟨.pre, old, next, node.localNode⟩ = .unchanged := if_pos hall
    have hnone : (node.segmentsLost next).isEmpty = true := by
      rw [segmentsLost, SegmentSet.isEmpty_diff, hall]
    rw [switched, react_of_unchanged hchange]
    exact
      { current := rfl
        poised := ⟨hpoised.vacant, hpoised.answers⟩
        partitioner := rfl
        store := rfl
        now := rfl
        closed := rfl
        ahead := hahead
        accepts := haccepts
        armed := (harms.armedIn_kept hall).symm
        cancelled := by
          rw [node.armedIn_of_isEmpty hnone]
          exact (UInt64.add_zero _).symm
        passes := by
          rw [if_pos hnone]
          exact (UInt64.add_zero _).symm
        resolved := rfl
        nextId := rfl
        changes := .refl _ }
  · let kept := (SegmentLocality.ofSnapshot node.listener.partitioner next node.localNode).keptSince
      (.ofSnapshot node.listener.partitioner old node.localNode)
    have hchange : OwnershipChange.ofEvent node.listener.partitioner
        ⟨.pre, old, next, node.localNode⟩ = .losing kept _ := if_neg hall
    have hswept : (node.swept kept).scheduler = ({ node.scheduler with
        gate := ⟨some next.topology, .segments kept⟩ }.disarm fun arming =>
          !kept.owns arming.id).2 := by
      show (node.scheduler.cancelUnowned next.topology (.segments kept)).2 = _
      rw [Scheduler.cancelUnowned_of_le haccepts]
      rfl
    have hexecutor : (node.swept kept).listener.executor =
        { node.listener.executor with current := none } := hpoised.vacant.cancelCurrent_eq
    have hswept' := hpoised.swept kept
    have hahead' : (node.swept kept).scheduler.TimersAhead := hahead.cancelUnowned _ _
    rw [switched, react_of_losing hchange]
    exact
      { current := rfl
        poised := ⟨hswept'.vacant, hswept'.answers⟩
        partitioner := rfl
        store := rfl
        now := by
          rw [hswept]
          rfl
        closed := by
          rw [hswept]
          rfl
        ahead := hahead'
        accepts := by
          rw [hswept]
          exact Scheduler.le_of_told rfl
        armed := by
          rw [hswept]
          apply List.filter_congr
          intro arming _
          exact Bool.not_not _
        cancelled := by
          rw [hswept, ← harms.filter_not_kept]
          rfl
        passes := by
          rw [segmentsLost, SegmentSet.isEmpty_diff, if_neg hall]
          rfl
        resolved := by rw [hexecutor]
        nextId := by rw [hexecutor]
        changes := .cancelUnowned _ _ _ }

omit [DecidableEq K] in
/-- A gain that is not too old opens the gate to all that is owned now. -/
theorem scheduler_widened {new : SegmentLocality K}
    (haccepts : ∀ current, node.scheduler.gate.topology = some current → current ≤ new.topology) :
    (node.widened new).scheduler =
      { node.scheduler with gate := ⟨some new.topology, .segments new⟩ } := by
  show (node.scheduler.install new.topology (.segments new)).2 = _
  rw [Scheduler.install_of_le haccepts]

/-- What the second announcement of a transition brings to a node that has nothing armed in the
segments that it gains: all that is stored there is armed, with a timer for each entry, and nothing else
changes. -/
structure Supplied (node : Node K) (gained : SegmentSet) (outcome : Option Outcome)
    (after : Node K) : Prop where
  notifier : after.notifier = node.notifier
  stored : after.store.entries = node.store.entries
  armed : ∃ added, after.scheduler.armed = node.scheduler.armed ++ added ∧
    added.map Arming.candidate = node.storedIn gained
  timed : after.scheduler.Timed
  cancelled : after.scheduler.metrics.cancelled = node.scheduler.metrics.cancelled
  passes : after.listener.metrics.cancelPasses.count =
    node.listener.metrics.cancelPasses.count
  outcome :
    let count := UInt64.ofNat (node.storedIn gained).length
    outcome = some (if gained.isEmpty then .noop else .scheduled ⟨count, count, 0, false⟩)

/-- A node that has armed only what it owned has all of it taken that is stored in the segments
gained. -/
theorem Poised.supplied (old new : Snapshot) (localNode : NodeId) (hpoised : node.Poised)
    (hopen : node.scheduler.closed = false) (haccounted : node.scheduler.Accounted)
    (hahead : node.scheduler.TimersAhead)
    (haccepts : ∀ current, node.scheduler.gate.topology = some current → current ≤ new.topology)
    (harms : node.ArmsIn (old.primarySegments localNode))
    (hstored : ∀ entry ∈ node.store.entries, node.scheduler.now < entry.deadline)
    (hdistinct : (node.store.entries.map (·.id)).Nodup)
    (hfresh : node.listener.executor.nextId ∉ node.listener.executor.resolved.map (·.1)) :
    node.Supplied ((new.primarySegments localNode).diff (old.primarySegments localNode))
      (node.deliver ⟨.post, old, new, localNode⟩).1
      (node.deliver ⟨.post, old, new, localNode⟩).2 := by
  by_cases hall : (old.primarySegments localNode).includes (new.primarySegments localNode) = true
  · have hchange : OwnershipChange.ofEvent node.listener.partitioner
        ⟨.post, old, new, localNode⟩ = .unchanged := if_pos hall
    have hnone : ((new.primarySegments localNode).diff
        (old.primarySegments localNode)).isEmpty = true := by
      rw [SegmentSet.isEmpty_diff, hall]
    have htimed := haccounted.timed_fireDue
    have hrest := hahead.fireDue_eq
    rw [hpoised.deliver_of_unchanged hchange]
    rw [hrest] at htimed ⊢
    exact
      { notifier := rfl
        stored := rfl
        armed := ⟨[], (List.append_nil _).symm, (node.storedIn_of_isEmpty hnone).symm⟩
        timed := htimed
        cancelled := rfl
        passes := rfl
        outcome := congrArg some (if_pos hnone).symm }
  · let past := SegmentLocality.ofSnapshot node.listener.partitioner old localNode
    let future := SegmentLocality.ofSnapshot node.listener.partitioner new localNode
    have hchange : OwnershipChange.ofEvent node.listener.partitioner
        ⟨.post, old, new, localNode⟩ = .gained past future _ := if_neg hall
    let widened := (node.widened future).scheduler
    have hwidened : widened =
        { node.scheduler with gate := ⟨some new.topology, .segments future⟩ } :=
      scheduler_widened haccepts
    have hfree : ∀ arming ∈ widened.armed, (future.gainedSince past).owns arming.id = false := by
      intro arming hmem
      rw [hwidened] at hmem
      apply SegmentSet.contains_eq_false.mpr
      intro hgained
      exact (SegmentSet.mem_diff.mp hgained).2 (harms arming hmem)
    obtain ⟨hreport, added, harmed, hadded⟩ := widened.placeGained_of_free
      (by rw [hwidened, hopen]) (by rw [hwidened]) hfree hdistinct
    have hextends := widened.extends_placeGained node.store.entries past future
    have hahead' : (widened.placeGained node.store.entries past future).2.TimersAhead := by
      apply hextends.timersAhead (hahead.install _ _)
      intro entry hmem
      rw [hwidened]
      exact hstored entry (List.mem_filter.mp hmem).1
    have hplaced : (widened.placeGained node.store.entries past future).2.Accounted :=
      (node.scheduler.changes_undergo node.store.entries (.gained past future .empty)).accounted
        haccounted
    have htimed := hplaced.timed_fireDue
    have hrest := hahead'.fireDue_eq
    obtain ⟨outcome, executor, store, hdeliver, -, -, hentries, houtcome⟩ :=
      hpoised.deliver_of_gained hchange
    rw [hdeliver, houtcome hfresh]
    rw [hrest] at htimed ⊢
    exact
      { notifier := rfl
        stored := hentries
        armed := ⟨added, harmed.trans (by rw [hwidened]), hadded⟩
        timed := htimed
        cancelled := hextends.cancelled.trans (by rw [hwidened])
        passes := rfl
        outcome := by
          intro count
          rw [SegmentSet.isEmpty_diff, if_neg hall, hreport]
          rfl }

end Announced

/-- A node at rest has an executor without work. -/
theorem Ready.vacant [DecidableEq K] {node : Node K} (hready : node.Ready) (hrest : node.AtRest) :
    node.listener.executor.Vacant := by
  refine ⟨hready.orderly.isOpen, ?_, hrest.drained⟩
  rcases hready.orderly.attended with hidle | ⟨pass, hrunning⟩
  · exact hidle
  · have hdrained := hrest.drained
    simp [Executor.live, hrunning, Worker.held] at hdrained

/-- What the installation of a snapshot makes of a node. -/
structure Exchanged (node : Node K) (next : Snapshot) (outcome : Outcome) (after : Node K) :
    Prop where
  current : after.notifier.current = next
  stored : after.store.entries = node.store.entries
  /-- What is armed in segments that are kept stays as it was, and what is stored in segments that
  are gained is armed to the stored deadlines. -/
  armed : ∃ added, after.scheduler.armed = node.armedIn (node.segmentsKept next) ++ added ∧
    added.map Arming.candidate = node.storedIn (node.segmentsGained next)
  /-- Each armed entry has a timer of its own, which runs to its deadline, and there are no others. -/
  timed : after.scheduler.Timed
  cancelled : after.scheduler.metrics.cancelled = node.scheduler.metrics.cancelled +
    UInt64.ofNat (node.armedIn (node.segmentsLost next)).length
  passes : after.listener.metrics.cancelPasses.count =
    node.listener.metrics.cancelPasses.count + if (node.segmentsLost next).isEmpty then 0 else 1
  outcome :
    let count := UInt64.ofNat (node.storedIn (node.segmentsGained next)).length
    outcome = if (node.segmentsGained next).isEmpty then .noop
      else .scheduled ⟨count, count, 0, false⟩

variable {node : Node K}

/-- What is lost by the first announcement and gained by the second makes up the transition. -/
theorem Relieved.exchanged [DecidableEq K] {next : Snapshot} {announced after : Node K} {outcome : Outcome}
    (hrelieved : node.Relieved next announced)
    (hsupplied : announced.Supplied (node.segmentsGained next) (some outcome) after) :
    node.Exchanged next outcome after := by
  have hsame : announced.storedIn (node.segmentsGained next) =
      node.storedIn (node.segmentsGained next) := by
    rw [storedIn, hrelieved.store, hrelieved.partitioner]
    rfl
  obtain ⟨added, harmed, hadded⟩ := hsupplied.armed
  have houtcome := hsupplied.outcome
  rw [hrelieved.armed] at harmed
  rw [hsame] at hadded houtcome
  constructor
  case current => rw [hsupplied.notifier, hrelieved.current]
  case stored => rw [hsupplied.stored, hrelieved.store]
  case armed => exact ⟨added, harmed, hadded⟩
  case timed => exact hsupplied.timed
  case cancelled => rw [hsupplied.cancelled, hrelieved.cancelled]
  case passes => rw [hsupplied.passes, hrelieved.passes]
  case outcome => exact Option.some.inj houtcome

variable [DecidableEq K]

/-- A node that is aligned, in order and poised takes a transition in one piece. -/
theorem Regular.exchanged (hregular : node.Regular) (haligned : node.Aligned)
    (hpoised : node.Poised) (hidle : node.installation = none)
    (hahead : node.scheduler.TimersAhead)
    (hstored : ∀ entry ∈ node.store.entries, node.scheduler.now < entry.deadline)
    {next : Snapshot} (hnewer : node.notifier.topology < next.topology) :
    ∃ handle installed outcome, node.install next = .ok ([handle], installed) ∧
      (handle.receive installed.settle.listener.executor).poll.1 = some outcome ∧
      node.Exchanged next outcome installed.settle := by
  obtain ⟨listener, hlone⟩ := hregular.lone
  have harms : node.ArmsIn (node.notifier.current.primarySegments node.localNode) := by
    intro arming hmem
    exact haligned.armed arming hmem _ haligned.current_mem_bounds
  have haccepts : ∀ current, node.scheduler.gate.topology = some current →
      current ≤ next.topology := by
    intro current htold
    obtain ⟨topology, hgate, hfrontier⟩ := haligned.topology
    rw [stage_of_idle hidle] at hfrontier
    obtain rfl := Option.some.inj (hgate.symm.trans htold)
    exact UInt64.le_trans hfrontier (UInt64.le_of_lt hnewer)
  have hrelieved := hpoised.relieved hahead haccepts harms
  let event : TopologyEvent := ⟨.post, node.notifier.current, next, node.localNode⟩
  have hsupplied : (node.switched next).Supplied (node.segmentsGained next)
      ((node.switched next).deliver event).1 ((node.switched next).deliver event).2 := by
    apply hrelieved.poised.supplied
    case hopen => exact hrelieved.closed.trans hregular.isOpen
    case haccounted => exact hrelieved.changes.accounted hregular.accounted
    case hahead => exact hrelieved.ahead
    case haccepts => exact hrelieved.accepts
    case harms =>
      intro arming hmem
      rw [hrelieved.armed] at hmem
      rw [hrelieved.partitioner]
      exact harms arming (List.mem_filter.mp hmem).1
    case hstored =>
      rw [hrelieved.store, hrelieved.now]
      exact hstored
    case hdistinct =>
      rw [hrelieved.store]
      exact hregular.distinct
    case hfresh =>
      -- A number that is not given out yet has no outcome.
      rw [hrelieved.nextId, hrelieved.resolved]
      intro hmem
      have hless := hregular.disciplined.numbered _ (List.mem_append_left _ hmem)
      exact Nat.lt_irrefl _ hless
  simp only [deliver, event] at hsupplied
  have harrived := hsupplied.outcome
  rw [harrived] at hsupplied
  have hinstall := install_of_lone hlone hregular.unobserved hidle hnewer
  exact ⟨_, _, _, hinstall, harrived, hrelieved.exchanged hsupplied⟩

end Node

namespace NodeSession

variable {K : Type} [DecidableEq K]

/-- What one transition does.  A registered node whose scheduler and executor have come to rest with
nothing left to do, whose store answers at once, and whose stored deadlines all lie ahead, installs a
newer snapshot so: what it had armed stays armed where the segment is kept, is taken back where it is
lost, and all that is stored in the segments gained is armed.  Each armed entry then has a timer that
runs to its deadline.  The losses are counted, and the only outcome reports the gain. -/
theorem installAndWait_exchanges {localNode : NodeId} {initial : Snapshot}
    {partitioner : Partitioner K} {config : Config} {now : Instant} {fresh : Node K}
    (hnew : Node.new localNode initial partitioner config now = .ok fresh)
    {actions : List (NodeAction K)} {session : NodeSession K}
    (hreached : session.node = fresh.register.run actions) (hrest : session.node.AtRest)
    (hsettled : session.node.settle = session.node) (hanswers : session.node.store.Answers)
    (hstored : ∀ entry ∈ session.node.store.entries,
      session.node.scheduler.now < entry.deadline)
    {next : Snapshot} (hnewer : session.node.notifier.topology < next.topology) :
    ∃ outcome, (session.perform (.installAndWait next)).1 = .outcomes [outcome] ∧
      session.node.Exchanged next outcome (session.perform (.installAndWait next)).2.node := by
  have hstart := (Node.aligned_register hnew).1
  have haligned : session.node.Aligned := hreached ▸ hstart.run actions
  have hregular : session.node.Regular :=
    hreached ▸ (Node.regular_register hnew).run hstart actions
  have hready : session.node.Ready :=
    hreached ▸ (Node.ready_register hnew).reaches ⟨actions, rfl⟩ (hreached ▸ hrest.idle)
  have hpoised : session.node.Poised := ⟨hready.vacant hrest, hanswers⟩
  have hahead : session.node.scheduler.TimersAhead := by
    rw [← hsettled, hpoised.settle_eq]
    exact Scheduler.timersAhead_fireDue _
  obtain ⟨handle, installed, outcome, hinstall, harrived, hexchanged⟩ :=
    hregular.exchanged haligned hpoised hrest.idle hahead hstored hnewer
  refine ⟨outcome, ?_, ?_⟩
  · simp [perform, hinstall, Handle.wait, harrived]
  · simp only [perform, hinstall]
    exact hexchanged

/-- A node gains segment 1; then one of its entries there is cancelled, and another is armed that is
not stored. -/
def exchangingRun : List (NodeAction UInt64) :=
  [.store 0 50, .schedule 0 50, .store 1 60, .store 5 60, .store 2 70, .store 6 80,
    .beginInstall (Node.growing 2), .advanceInstall, .advanceInstall, .advanceInstall,
    .advanceInstall, .takeNext, .passStep 0, .passStep 0, .passStep 0, .passStep 0, .passStep 0,
    .passStep 0, .passStep 0, .passStep 0, .passStep 0, .cancel 5, .schedule 9 90, .advance 10]

/-- Then it loses segment 0 and gains segment 2. -/
theorem installAndWait_exchanges_exchangingRun :
    ∃ (next : Snapshot) (session : NodeSession UInt64),
      session.node.AtRest ∧ session.node.settle = session.node ∧
      session.node.scheduler.ids = [0, 1, 9] ∧
      ∃ outcome, (session.perform (.installAndWait next)).1 = .outcomes [outcome] ∧
        session.node.Exchanged next outcome (session.perform (.installAndWait next)).2.node := by
  let next : Snapshot := .ofParts 3 [0, 1] [[1], [0], [0], [1]]
  let session : NodeSession UInt64 := ⟨Node.growingNode.register.run exchangingRun, [], 0⟩
  have hrest : session.node.AtRest :=
    ⟨Option.isNone_iff_eq_none.mp (by decide +kernel), List.isEmpty_iff.mp (by decide +kernel)⟩
  have hanswers : session.node.store.Answers :=
    ⟨by decide +kernel, Option.isNone_iff_eq_none.mp (by decide +kernel)⟩
  have hready : session.node.Ready :=
    (Node.ready_register Node.new_growingNode).reaches ⟨exchangingRun, rfl⟩ hrest.idle
  have hpoised : session.node.Poised := ⟨hready.vacant hrest, hanswers⟩
  have hahead : session.node.scheduler.TimersAhead :=
    show ∀ timer ∈ _, _ < _ by decide +kernel
  have hfired : session.node.scheduler.fireDue = session.node.scheduler :=
    hahead.fireDue_of_running (by decide +kernel)
  have hsettled : session.node.settle = session.node := by
    rw [hpoised.settle_eq, hfired]
  have hstored : ∀ entry ∈ session.node.store.entries,
      session.node.scheduler.now < entry.deadline := by decide +kernel
  have hnewer : session.node.notifier.topology < next.topology := by decide +kernel
  exact ⟨next, session, hrest, hsettled, by decide +kernel,
    installAndWait_exchanges Node.new_growingNode rfl hrest hsettled hanswers hstored hnewer⟩

end NodeSession

end Custody
