/-
# What a registration misses

A listener that registers knows the snapshot that it read, and hears of the transitions that begin
once it is on the list.  Of one that began earlier it hears nothing, not even when that one takes
effect after the listener read.  So what decides is whether the snapshot that was read is the one that
will be in effect when the installation under way is over, at the moment when the listener puts itself
on the list.  If it is, gate and armings agree with the snapshot in effect from then on, whatever is
installed.  If it is not, they stay at the snapshot that was read.

While the listener is in no audience, an installation changes neither gate nor armings, nor what is
in effect at its end (`Passes`).
-/

import Custody.Node.Registration
import Custody.Proofs.Node.Ownership

namespace Custody

/-- Everybody who hears of an installation only looks on. -/
structure Installation.Bypasses {K : Type} (installation : Installation K)
    (observers : List ListenerId) : Prop where
  resting : installation.cancelling = none
  unheard : installation.unheard ⊆ observers
  audience : installation.transition.audience ⊆ observers

namespace Node

variable {K : Type} {partitioner : Partitioner K} {localNode : NodeId}

/-- The snapshot that is in effect once the installation under way is over. -/
def upcoming (node : Node K) : Snapshot :=
  match node.installation with
  | some installation =>
      if installation.phase.isPre then installation.transition.new else node.notifier.current
  | none => node.notifier.current

/-- The listener of a node hears nothing of what is being installed. -/
def Bypassed (node : Node K) : Prop :=
  ∀ installation, node.installation = some installation → installation.Bypasses node.observers

/-- A node that has just begun to install a snapshot. -/
def announcing (node : Node K) (next : Snapshot) : Node K :=
  { node with
    installation := some
      ⟨⟨node.notifier.current, next, node.localNode, node.notifier.listeners⟩, .pre,
        node.notifier.listeners, none, []⟩ }

theorem upcoming_of_idle {node : Node K} (hidle : node.installation = none) :
    node.upcoming = node.notifier.current := by
  simp [upcoming, hidle]

/-- From one node to another nothing changes for a listener that is in no audience. -/
structure Passes (before after : Node K) : Prop where
  localNode : after.localNode = before.localNode
  listeners : after.notifier.listeners = before.notifier.listeners
  nextListener : after.notifier.nextListener = before.notifier.nextListener
  partitioner : after.listener.partitioner = before.listener.partitioner
  registration : after.registration = before.registration
  observers : after.observers = before.observers
  scheduler : before.scheduler.Gated after.scheduler
  upcoming : after.upcoming = before.upcoming
  bypassed : after.Bypassed

/-- A quiet step passes by. -/
theorem Quiet.passes {before after : Node K} (hquiet : before.Quiet after)
    (hbypassed : before.Bypassed) : before.Passes after where
  localNode := congrArg Notifier.localNode hquiet.notifier
  listeners := congrArg Notifier.listeners hquiet.notifier
  nextListener := congrArg Notifier.nextListener hquiet.notifier
  partitioner := hquiet.partitioner
  registration := hquiet.registration
  observers := hquiet.observers
  scheduler := hquiet.scheduler
  upcoming := by rw [Node.upcoming, Node.upcoming, hquiet.installation, hquiet.notifier]
  bypassed := by
    unfold Bypassed
    rw [hquiet.installation, hquiet.observers]
    exact hbypassed

/-- Somebody who is told of a bypassing installation only looks on. -/
theorem Hears.not_bypassed {node : Node K} {installation : Installation K} {id : ListenerId}
    {unheard : List ListenerId} {change : OwnershipChange K}
    (hhears : node.Hears installation id unheard change) : ¬ node.Bypassed := by
  intro hbypassed
  apply hhears.listener
  apply (hbypassed installation hhears.installing).unheard
  rw [hhears.next]
  exact List.mem_cons_self

/-- An installation that bypasses the listener passes by; only its beginning changes what is in effect
in the end. -/
theorem InstallStep.begins_or_passes {before after : Node K} {action : NodeAction K}
    (hstep : before.InstallStep action after) (hbypassed : before.Bypassed) :
    (∃ next, action = .beginInstall next ∧ before.installation = none ∧
      after = before.announcing next) ∨ before.Passes after := by
  cases hstep with
  | begun next hidle hnewer => exact Or.inl ⟨next, rfl, hidle, rfl⟩
  | narrowed installation kept hinstalling hcancelling =>
      cases (hbypassed installation hinstalling).resting.symm.trans hcancelling
  | swept installation kept hinstalling hcancelling =>
      cases (hbypassed installation hinstalling).resting.symm.trans hcancelling
  | observed installation id unheard hinstalling hresting hnext hobserver =>
      obtain ⟨-, hunheard, haudience⟩ := hbypassed installation hinstalling
      refine Or.inr ⟨rfl, rfl, rfl, rfl, rfl, rfl, .refl _, ?_, fun later hlater => ?_⟩
      · simp [Node.upcoming, hinstalling, Node.observe]
      · obtain rfl := Option.some.inj hlater
        rw [hnext] at hunheard
        exact ⟨hresting, (List.cons_subset.mp hunheard).2, haudience⟩
  | unaffected installation id unheard hhears => exact absurd hbypassed hhears.not_bypassed
  | lossBegun installation id unheard kept lost hhears =>
      exact absurd hbypassed hhears.not_bypassed
  | takenUp installation id unheard old new gained handle hhears =>
      exact absurd hbypassed hhears.not_bypassed
  | applied installation hinstalling hresting hheard hphase =>
      obtain ⟨-, -, haudience⟩ := hbypassed installation hinstalling
      refine Or.inr ⟨rfl, rfl, rfl, rfl, rfl, rfl, .refl _, ?_, fun later hlater => ?_⟩
      · simp [Node.upcoming, hinstalling, hphase, Phase.isPre, Notifier.apply]
      · obtain rfl := Option.some.inj hlater
        exact ⟨hresting, haudience, haudience⟩
  | ended installation hinstalling hdone =>
      obtain ⟨hphase, -, -⟩ := Installation.isDone_eq_true.mp hdone
      refine Or.inr ⟨rfl, rfl, rfl, rfl, rfl, rfl, .refl _, ?_, fun later hlater => ?_⟩
      · simp [Node.upcoming, hinstalling, hphase, Phase.isPre]
      · cases hlater

/-- Every step of a bypassed node but a registration begins an installation or passes by. -/
theorem act_begins_or_passes [DecidableEq K] {node : Node K} (hbypassed : node.Bypassed)
    {action : NodeAction K} (hother : action ≠ .register) :
    (∃ next, action = .beginInstall next ∧ node.installation = none ∧
      node.act action = node.announcing next) ∨ node.Passes (node.act action) := by
  rcases node.act_cases_of_ne_register hother with hquiet | hstep
  · exact Or.inr (hquiet.passes hbypassed)
  · exact hstep.begins_or_passes hbypassed

/-- The gate of a node stands at the segments that the local node owns under a snapshot, and nothing
is armed outside them. -/
structure StandsAt (node : Node K) (partitioner : Partitioner K) (localNode : NodeId)
    (snapshot : Snapshot) : Prop where
  gate : ∃ topology locality, node.scheduler.gate = ⟨some topology, .segments locality⟩ ∧
    topology ≤ snapshot.topology ∧ locality.partitioner = partitioner ∧
    locality.segments = snapshot.primarySegments localNode
  armed : node.ArmsWithin partitioner localNode snapshot

/-- What the gate owns is owned under the snapshot at which it stands, so whatever passes the gate
leaves a node where it stands. -/
theorem StandsAt.gated {before after : Node K} {snapshot : Snapshot}
    (hstands : before.StandsAt partitioner localNode snapshot)
    (hgated : before.scheduler.Gated after.scheduler) :
    after.StandsAt partitioner localNode snapshot := by
  obtain ⟨topology, locality, hgate, hle, hplaced, hsegments⟩ := hstands.gate
  refine ⟨⟨topology, locality, hgated.gate.trans hgate, hle, hplaced, hsegments⟩, ?_⟩
  intro arming hmem
  rcases hgated.armed arming hmem with hold | howns
  · exact hstands.armed arming hold
  · rw [hgate] at howns
    have hmem : locality.partitioner.segmentOf arming.id ∈ locality.segments :=
      SegmentSet.contains_eq_true.mp howns
    rwa [hplaced, hsegments] at hmem

/-- The listener of a node is not on the list; everybody who is only looks on, and the number of the
next listener is free. -/
structure Unlisted (node : Node K) (partitioner : Partitioner K) (localNode : NodeId) :
    Prop where
  localNode : node.localNode = localNode
  partitioner : node.listener.partitioner = partitioner
  registration : node.registration = none
  listeners : node.notifier.listeners ⊆ node.observers
  numbered : ∀ id ∈ node.observers, id < node.notifier.nextListener
  once : node.notifier.listeners.Nodup
  bypassed : node.Bypassed

/-- Whoever comes next has a number of its own. -/
theorem Unlisted.fresh {node : Node K} (hunlisted : node.Unlisted partitioner localNode) :
    node.notifier.nextListener ∉ node.observers :=
  fun hmem => Nat.lt_irrefl _ (hunlisted.numbered _ hmem)

theorem Unlisted.nodup_addListener {node : Node K}
    (hunlisted : node.Unlisted partitioner localNode) :
    node.notifier.addListener.2.listeners.Nodup :=
  Notifier.nodup_addListener hunlisted.once fun hmem =>
    hunlisted.fresh (hunlisted.listeners hmem)

theorem Unlisted.addObserver {node : Node K} (hunlisted : node.Unlisted partitioner localNode) :
    node.addObserver.Unlisted partitioner localNode where
  localNode := hunlisted.localNode
  partitioner := hunlisted.partitioner
  registration := hunlisted.registration
  listeners id hmem := by
    rcases List.mem_append.mp hmem with hold | hnew
    · exact List.mem_append_left _ (hunlisted.listeners hold)
    · exact List.mem_append_right _ hnew
  numbered id hmem := by
    rcases List.mem_append.mp hmem with hold | hnew
    · exact Nat.lt_succ_of_lt (hunlisted.numbered id hold)
    · rw [List.mem_singleton.mp hnew]
      exact Nat.lt_succ_self _
  once := hunlisted.nodup_addListener
  bypassed installation hinstalling := by
    obtain ⟨hresting, hunheard, haudience⟩ := hunlisted.bypassed installation hinstalling
    exact ⟨hresting, List.subset_append_of_subset_left _ hunheard,
      List.subset_append_of_subset_left _ haudience⟩

/-- A new node is not on the list of its notifier, and its gate was told of no topology, however many
look on. -/
theorem unlisted_new {initial : Snapshot} {config : Config} {now : Instant} {fresh : Node K}
    (hnew : Node.new localNode initial partitioner config now = .ok fresh) (observers : Nat) :
    (Nat.repeat Node.addObserver observers fresh).Unlisted partitioner localNode ∧
      (Nat.repeat Node.addObserver observers fresh).scheduler.gate.topology = none := by
  induction observers with
  | zero =>
      obtain rfl := new_eq_ok hnew
      refine ⟨⟨rfl, rfl, rfl, List.nil_subset _, ?_, List.nodup_nil, ?_⟩, rfl⟩
      · exact fun id hmem => nomatch hmem
      · exact fun installation hinstalling => nomatch hinstalling
  | succ count ih => exact ⟨ih.1.addObserver, ih.2⟩

theorem Unlisted.passes {before after : Node K}
    (hunlisted : before.Unlisted partitioner localNode) (hpasses : before.Passes after) :
    after.Unlisted partitioner localNode where
  localNode := hpasses.localNode.trans hunlisted.localNode
  partitioner := hpasses.partitioner.trans hunlisted.partitioner
  registration := hpasses.registration.trans hunlisted.registration
  listeners := by
    rw [hpasses.listeners, hpasses.observers]
    exact hunlisted.listeners
  numbered := by
    rw [hpasses.observers, hpasses.nextListener]
    exact hunlisted.numbered
  once := hpasses.listeners ▸ hunlisted.once
  bypassed := hpasses.bypassed

/-- No step but a registration puts the listener on the list or moves the gate: also an installation
that begins has an audience that only looks on. -/
theorem Unlisted.act [DecidableEq K] {node : Node K}
    (hunlisted : node.Unlisted partitioner localNode) {action : NodeAction K}
    (hother : action ≠ .register) :
    (node.act action).Unlisted partitioner localNode ∧
      node.scheduler.Gated (node.act action).scheduler := by
  rcases act_begins_or_passes hunlisted.bypassed hother with ⟨next, -, -, hbegun⟩ | hpasses
  · rw [hbegun]
    refine ⟨{ hunlisted with bypassed := fun installation hinstalling => ?_ }, .refl _⟩
    obtain rfl := Option.some.inj hinstalling
    exact ⟨rfl, hunlisted.listeners, hunlisted.listeners⟩
  · exact ⟨hunlisted.passes hpasses, hpasses.scheduler⟩

/-- What is in effect in the end stays the same until an installation begins. -/
theorem Unlisted.upcoming_act [DecidableEq K] {node : Node K}
    (hunlisted : node.Unlisted partitioner localNode) {action : NodeAction K}
    (hother : action ≠ .register) (hnone : ∀ next, action ≠ .beginInstall next) :
    (node.act action).upcoming = node.upcoming := by
  rcases act_begins_or_passes hunlisted.bypassed hother with ⟨next, hbegin, -⟩ | hpasses
  · exact absurd hbegin (hnone next)
  · exact hpasses.upcoming

/-- Neither the gate nor the gauges decide who is on the list. -/
theorem Unlisted.confined {node : Node K} (hunlisted : node.Unlisted partitioner localNode)
    (metrics : TransitionMetrics) (scheduler : Scheduler K) :
    ({ node with
      listener := { node.listener with metrics := metrics }
      scheduler := scheduler } : Node K).Unlisted partitioner localNode :=
  ⟨hunlisted.localNode, hunlisted.partitioner, hunlisted.registration, hunlisted.listeners,
    hunlisted.numbered, hunlisted.once, hunlisted.bypassed⟩

/-- A listener that takes back everything that the node does not own under the snapshot that it read
makes the node stand there, unless the gate was told of a newer topology. -/
theorem Unlisted.standsAt_cancel {node : Node K} (hunlisted : node.Unlisted partitioner localNode)
    {read : Snapshot}
    (htold : ∀ topology, node.scheduler.gate.topology = some topology → topology ≤ read.topology)
    (listener : Listener K (SchedulingPass K)) :
    ({ node with
      listener := listener
      scheduler := (tasks.cancel (node.localityUnder read) node.scheduler).2 } :
        Node K).StandsAt partitioner localNode read := by
  have hswept : (tasks.cancel (node.localityUnder read) node.scheduler).2 =
      ({ node.scheduler with
        gate := ⟨some read.topology, .segments (node.localityUnder read)⟩ }.disarm
          fun arming => !(node.localityUnder read).owns arming.id).2 :=
    congrArg Prod.snd
      (Scheduler.cancelUnowned_of_le htold (.segments (node.localityUnder read)))
  obtain ⟨hlocal, hpartitioner, -⟩ := hunlisted
  refine ⟨⟨read.topology, node.localityUnder read, congrArg Scheduler.gate hswept,
    UInt64.le_refl _, hpartitioner, hlocal ▸ rfl⟩, fun arming hmem => ?_⟩
  change arming ∈ (tasks.cancel (node.localityUnder read) node.scheduler).2.armed at hmem
  rw [hswept] at hmem
  have howns : (node.localityUnder read).owns arming.id = true := by
    simpa using (Scheduler.mem_armed_disarm.mp hmem).2
  rw [← hlocal, ← hpartitioner]
  exact SegmentSet.contains_eq_true.mp howns

/-- The listener of a node is on the list, but hears nothing of what is being installed. -/
structure Listed (node : Node K) (partitioner : Partitioner K) (localNode : NodeId) : Prop where
  localNode : node.localNode = localNode
  partitioner : node.listener.partitioner = partitioner
  listening : ∃ listener, node.Listening listener
  bypassed : node.Bypassed

/-- A listener that puts itself on the list. -/
theorem Unlisted.enrol {node : Node K} (hunlisted : node.Unlisted partitioner localNode) :
    ({ node with
      notifier := node.notifier.addListener.2
      registration := some node.notifier.addListener.1 } : Node K).Listed partitioner localNode
    where
  localNode := hunlisted.localNode
  partitioner := hunlisted.partitioner
  listening := by
    refine ⟨node.notifier.nextListener, rfl, ?_, hunlisted.nodup_addListener, ?_,
      hunlisted.fresh⟩
    · exact List.mem_append_right _ (List.mem_singleton.mpr rfl)
    · intro other hmem hother
      rcases List.mem_append.mp hmem with hold | hnew
      · exact absurd (hunlisted.listeners hold) hother
      · exact List.mem_singleton.mp hnew
  bypassed := hunlisted.bypassed

theorem Listed.passes {before after : Node K} (hlisted : before.Listed partitioner localNode)
    (hpasses : before.Passes after) : after.Listed partitioner localNode where
  localNode := hpasses.localNode.trans hlisted.localNode
  partitioner := hpasses.partitioner.trans hlisted.partitioner
  listening := by
    obtain ⟨listener, hlistening⟩ := hlisted.listening
    exact ⟨listener,
      hlistening.congr hpasses.listeners hpasses.registration hpasses.observers⟩
  bypassed := hpasses.bypassed

/-- A listed node that installs nothing and stands at the snapshot in effect is aligned. -/
theorem Listed.aligned {node : Node K} (hlisted : node.Listed partitioner localNode)
    (hidle : node.installation = none)
    (hstands : node.StandsAt partitioner localNode node.notifier.current) : node.Aligned := by
  obtain ⟨topology, locality, hgate, hle, hplaced, hsegments⟩ := hstands.gate
  obtain ⟨hlocal, hpartitioner, hlistening, -⟩ := hlisted
  refine ⟨hlistening, fun installation hinstalling => ?_, ?_, ?_, fun arming hmem => ?_⟩
  · cases hidle.symm.trans hinstalling
  · rw [stage_of_idle hidle, hgate, hlocal, hpartitioner]
    exact ⟨locality, rfl, hplaced, hsegments⟩
  · rw [stage_of_idle hidle, hgate]
    exact ⟨topology, rfl, hle⟩
  · intro snapshot hbound
    rw [stage_of_idle hidle] at hbound
    rw [List.mem_singleton.mp hbound, hlocal, hpartitioner]
    exact hstands.armed arming hmem

/-- An aligned node that installs nothing stands at the snapshot in effect. -/
theorem Aligned.standsAt {node : Node K} (haligned : node.Aligned)
    (hidle : node.installation = none) :
    node.StandsAt node.listener.partitioner node.localNode node.notifier.current := by
  obtain ⟨locality, hgate, hplaced, hsegments⟩ := haligned.gate
  obtain ⟨topology, htold, hle⟩ := haligned.topology
  have harmed := haligned.armed
  rw [stage_of_idle hidle] at hsegments hle harmed
  refine ⟨⟨topology, locality, ?_, hle, hplaced, hsegments⟩, fun arming hmem => ?_⟩
  · rw [← htold, ← hgate]
  · exact harmed arming hmem _ (List.mem_singleton.mpr rfl)

/-- A node keeps up: it is aligned, or it hears nothing of what is being installed but stands where
this leads already. -/
inductive KeepsUp (node : Node K) (partitioner : Partitioner K) (localNode : NodeId) : Prop where
  | aligned (hlocal : node.localNode = localNode)
      (hpartitioner : node.listener.partitioner = partitioner) (haligned : node.Aligned)
  | awaiting (hlisted : node.Listed partitioner localNode) (hinstalling : node.installation ≠ none)
      (hstands : node.StandsAt partitioner localNode node.upcoming)

theorem Listed.keepsUp {node : Node K} (hlisted : node.Listed partitioner localNode)
    (hstands : node.StandsAt partitioner localNode node.upcoming) :
    node.KeepsUp partitioner localNode := by
  by_cases hidle : node.installation = none
  · rw [upcoming_of_idle hidle] at hstands
    exact .aligned hlisted.localNode hlisted.partitioner (hlisted.aligned hidle hstands)
  · exact .awaiting hlisted hidle hstands

theorem KeepsUp.act [DecidableEq K] {node : Node K} (hkeeps : node.KeepsUp partitioner localNode)
    {action : NodeAction K} (hother : action ≠ .register) :
    (node.act action).KeepsUp partitioner localNode := by
  cases hkeeps with
  | aligned hlocal hpartitioner haligned =>
      obtain ⟨hlocal', hpartitioner'⟩ := act_identity haligned.registered action
      exact .aligned (hlocal'.trans hlocal) (hpartitioner'.trans hpartitioner)
        (haligned.act action)
  | awaiting hlisted hinstalling hstands =>
      rcases act_begins_or_passes hlisted.bypassed hother with ⟨next, -, hidle, -⟩ | hpasses
      · exact absurd hidle hinstalling
      · apply (hlisted.passes hpasses).keepsUp
        rw [hpasses.upcoming]
        exact hstands.gated hpasses.scheduler

/-- A node that keeps up stands at the snapshot in effect whenever nothing is being installed. -/
theorem KeepsUp.standsAt {node : Node K} (hkeeps : node.KeepsUp partitioner localNode)
    (hidle : node.installation = none) :
    node.StandsAt partitioner localNode node.notifier.current := by
  cases hkeeps with
  | aligned hlocal hpartitioner haligned =>
      rw [← hlocal, ← hpartitioner]
      exact haligned.standsAt hidle
  | awaiting hlisted hinstalling hstands => exact absurd hidle hinstalling

end Node

end Custody
