/-
# A node arms only what it owns

Every step keeps gate and armings in agreement with the stage of the node.  A quiet step moves
neither gate nor stage; an advance of an installation moves both, from one stage to the next.  A run
of any length, in which passes are held up, overtaken and go on where they stopped, therefore arms
only entries that the node owns under the snapshot in effect, and under both snapshots from the
moment the losses are dealt with until the gains are taken up.

Nothing is assumed of the snapshots.  That a stale one changes nothing is part of the steps.
-/

import Custody.Proofs.Node.Stage

namespace Custody

namespace Node

variable {K : Type}

/-- The stage depends on notifier, registration and installation alone. -/
theorem Quiet.stage {before after : Node K} (hquiet : before.Quiet after) :
    after.stage = before.stage := by
  simp only [Node.stage, hquiet.installation, hquiet.registration, hquiet.notifier]

/-- Who listens depends on notifier, registration and observers alone. -/
theorem Listening.congr {before after : Node K} {listener : ListenerId}
    (hlistening : before.Listening listener)
    (hlisteners : after.notifier.listeners = before.notifier.listeners)
    (hregistration : after.registration = before.registration)
    (hobservers : after.observers = before.observers) : after.Listening listener where
  registered := hregistration.trans hlistening.registered
  listed := hlisteners ▸ hlistening.listed
  once := hlisteners ▸ hlistening.once
  only other hmem hother := hlistening.only other (hlisteners ▸ hmem) (hobservers ▸ hother)
  own := hobservers ▸ hlistening.own

/-- A quiet step keeps a node aligned: what is newly armed passed the gate. -/
theorem Aligned.quiet {before after : Node K} (haligned : before.Aligned)
    (hquiet : before.Quiet after) : after.Aligned where
  listening := by
    obtain ⟨listener, hlistening⟩ := haligned.listening
    exact ⟨listener, hlistening.congr (congrArg _ hquiet.notifier) hquiet.registration
      hquiet.observers⟩
  installing installation hinstalling := by
    rw [hquiet.installation] at hinstalling
    obtain ⟨hlocal, hnewer, hcurrent, haudience, hunheard, hcancelling⟩ :=
      haligned.installing installation hinstalling
    refine ⟨?_, hnewer, ?_, ?_, ?_, ?_⟩
    all_goals
      simpa only [localNode, hquiet.notifier, hquiet.partitioner, hquiet.registration]
  gate := by
    rw [hquiet.scheduler.gate, hquiet.stage, hquiet.partitioner, localNode, hquiet.notifier]
    exact haligned.gate
  topology := by
    rw [hquiet.scheduler.gate, hquiet.stage]
    exact haligned.topology
  armed arming hmem snapshot hbound := by
    rw [hquiet.stage] at hbound
    rw [hquiet.partitioner, localNode, hquiet.notifier]
    rcases hquiet.scheduler.armed arming hmem with hold | howns
    · exact haligned.armed arming hold snapshot hbound
    · exact haligned.mem_bounds_of_owns howns hbound

/-- What an aligned node hears, its registered listener hears. -/
theorem Hears.eq_listener {node : Node K} {listener id : ListenerId}
    {installation : Installation K} {unheard : List ListenerId} {change : OwnershipChange K}
    (hhears : node.Hears installation id unheard change) (hlistening : node.Listening listener)
    (hinstalling : node.Installing installation) : id = listener ∧ listener ∉ unheard := by
  have hsuffix : id :: unheard <:+ node.notifier.listeners :=
    hhears.next ▸ hinstalling.unheard
  have hself : id = listener :=
    hlistening.only id (hsuffix.subset List.mem_cons_self) hhears.listener
  have hnodup : (id :: unheard).Nodup := hlistening.once.sublist hsuffix.sublist
  exact ⟨hself, hself ▸ (List.nodup_cons.mp hnodup).1⟩

/-- A node whose listener is next to hear a first announcement has not heard of the transition. -/
theorem Hears.stage_of_pre {node : Node K} {listener id : ListenerId}
    {installation : Installation K} {unheard : List ListenerId} {change : OwnershipChange K}
    (hhears : node.Hears installation id unheard change) (hlistening : node.Listening listener)
    (hinstalling : node.Installing installation) (hphase : installation.phase = .pre) :
    node.stage = .announced installation.transition.old installation.transition.new := by
  obtain ⟨rfl, -⟩ := hhears.eq_listener hlistening hinstalling
  rw [stage_of_installing hlistening hhears.installing]
  exact Installation.stage_announced hhears.resting hphase (hhears.next ▸ List.mem_cons_self)

/-- A node whose listener is next to hear a second announcement stands between the two snapshots. -/
theorem Hears.stage_of_post {node : Node K} {listener id : ListenerId}
    {installation : Installation K} {unheard : List ListenerId} {change : OwnershipChange K}
    (hhears : node.Hears installation id unheard change) (hlistening : node.Listening listener)
    (hinstalling : node.Installing installation) (hphase : installation.phase = .post) :
    node.stage = .bridging installation.transition.old installation.transition.new := by
  obtain ⟨rfl, -⟩ := hhears.eq_listener hlistening hinstalling
  rw [stage_of_installing hlistening hhears.installing]
  exact Installation.stage_bridging_of_post hhears.resting hphase
    (hhears.next ▸ List.mem_cons_self)

/-- Once a listener has heard, those who have not are still in line. -/
theorem Installing.tail {node : Node K} {installation : Installation K} {id : ListenerId}
    {unheard : List ListenerId} (hinstalling : node.Installing installation)
    (hnext : installation.unheard = id :: unheard) : unheard <:+ node.notifier.listeners :=
  (List.suffix_cons id unheard).trans (hnext ▸ hinstalling.unheard)

/-- A step that does not touch the scheduler keeps a node aligned if its stage leads on. -/
theorem Aligned.leads {before after : Node K} {listener : ListenerId} {later : Installation K}
    (haligned : before.Aligned) (hlistening : after.Listening listener)
    (hinstalling : after.installation = some later) (hbelongs : after.Installing later)
    (hscheduler : after.scheduler = before.scheduler)
    (hpartitioner : after.listener.partitioner = before.listener.partitioner)
    (hlocal : after.localNode = before.localNode)
    (hleads : before.stage.Leads before.localNode (later.stage listener)) : after.Aligned := by
  have hstage := stage_of_installing hlistening hinstalling
  refine ⟨⟨listener, hlistening⟩, fun installation hsame => ?_, ?_, ?_, fun arming hmem => ?_⟩
  · obtain rfl := Option.some.inj (hinstalling.symm.trans hsame)
    exact hbelongs
  · obtain ⟨locality, hgate, hsame, hsegments⟩ := haligned.gate
    rw [hscheduler, hstage, hlocal, hpartitioner]
    exact ⟨locality, hgate, hsame, hleads.gates _ hsegments⟩
  · obtain ⟨topology, hinstalled, hle⟩ := haligned.topology
    rw [hscheduler, hstage]
    exact ⟨topology, hinstalled, UInt64.le_trans hle hleads.frontier⟩
  · rw [hstage, hpartitioner, hlocal]
    exact hleads.bounds _ (haligned.armed arming (hscheduler ▸ hmem))

/-- A step that gives the gate a new locality keeps a node aligned if that locality fits the stage
and everything armed lies within it. -/
theorem Aligned.regated {after : Node K} {listener : ListenerId} {later : Installation K}
    {stage : Stage} {locality : SegmentLocality K} (hlistening : after.Listening listener)
    (hinstalling : after.installation = some later) (hbelongs : after.Installing later)
    (hlater : later.stage listener = stage)
    (hgate : after.scheduler.gate = ⟨some locality.topology, .segments locality⟩)
    (hpartitioner : locality.partitioner = after.listener.partitioner)
    (hgates : stage.Gates after.localNode locality.segments)
    (hfrontier : locality.topology = stage.frontier)
    (harmed : ∀ arming ∈ after.scheduler.armed, ∀ snapshot ∈ stage.bounds,
      after.listener.partitioner.segmentOf arming.id ∈ snapshot.primarySegments after.localNode) :
    after.Aligned := by
  have hstage : after.stage = stage :=
    (stage_of_installing hlistening hinstalling).trans hlater
  rw [← hstage] at hgates hfrontier harmed
  refine ⟨⟨listener, hlistening⟩, fun installation hsame => ?_, ?_, ?_, harmed⟩
  · obtain rfl := Option.some.inj (hinstalling.symm.trans hsame)
    exact hbelongs
  · exact ⟨locality, congrArg Gate.locality hgate, hpartitioner, hgates⟩
  · exact ⟨locality.topology, congrArg Gate.topology hgate, hfrontier ▸ UInt64.le_refl _⟩

/-- A gate at its stage accepts the locality of the topology that the transition leads to. -/
theorem Aligned.install_eq {node : Node K} (haligned : node.Aligned) {topology : TopologyId}
    (hfrontier : node.stage.frontier = topology) (locality : Locality K) :
    node.scheduler.install topology locality =
      (true, { node.scheduler with gate := ⟨some topology, locality⟩ }) := by
  obtain ⟨installed, hinstalled, hle⟩ := haligned.topology
  refine Scheduler.install_of_le (fun current hcurrent => ?_) locality
  obtain rfl : installed = current := Option.some.inj (hinstalled.symm.trans hcurrent)
  exact hfrontier ▸ hle

/-- The localities of an announcement are those of the local node. -/
theorem Hears.of_losing {node : Node K} {installation : Installation K} {id : ListenerId}
    {unheard : List ListenerId} {kept : SegmentLocality K} {lost : SegmentSet}
    (hhears : node.Hears installation id unheard (.losing kept lost))
    (hinstalling : node.Installing installation) :
    installation.phase = .pre ∧
      kept = (SegmentLocality.ofSnapshot node.listener.partitioner installation.transition.new
        node.localNode).keptSince
          (.ofSnapshot node.listener.partitioner installation.transition.old node.localNode) := by
  have hlosing := OwnershipChange.of_losing hhears.change
  rwa [show (installation.transition.event installation.phase).localNode = _ from
    hinstalling.localNode] at hlosing

/-- What a node takes up is its locality under the new snapshot. -/
theorem Hears.of_gained {node : Node K} {installation : Installation K} {id : ListenerId}
    {unheard : List ListenerId} {old new : SegmentLocality K} {gained : SegmentSet}
    (hhears : node.Hears installation id unheard (.gained old new gained))
    (hinstalling : node.Installing installation) :
    installation.phase = .post ∧
      old = .ofSnapshot node.listener.partitioner installation.transition.old node.localNode ∧
      new = .ofSnapshot node.listener.partitioner installation.transition.new node.localNode ∧
      gained = (new.gainedSince old).segments := by
  have hgained := OwnershipChange.of_gained hhears.change
  rwa [show (installation.transition.event installation.phase).localNode = _ from
    hinstalling.localNode] at hgained

/-- An announcement that asks for nothing leads to the stage that hearing it leads to. -/
theorem Hears.leads_of_unchanged {node : Node K} {listener id : ListenerId}
    {installation : Installation K} {unheard : List ListenerId}
    (hhears : node.Hears installation id unheard .unchanged) (hlistening : node.Listening listener)
    (hinstalling : node.Installing installation) (handles : List Handle) :
    node.stage.Leads node.localNode
      (({ installation with unheard := unheard, handles := handles } :
        Installation K).stage listener) := by
  obtain ⟨rfl, hheard⟩ := hhears.eq_listener hlistening hinstalling
  have hlocal : (installation.transition.event installation.phase).localNode = node.localNode :=
    hinstalling.localNode
  rcases OwnershipChange.of_unchanged hhears.change with ⟨hphase, hkept⟩ | ⟨hphase, hgained⟩
  · have hafter : ({ installation with unheard := unheard, handles := handles } :
        Installation K).stage id = .bridging _ _ :=
      Installation.stage_bridging_of_pre hhears.resting hphase hheard
    rw [hhears.stage_of_pre hlistening hinstalling hphase, hafter]
    exact .bridging (hlocal ▸ hkept)
  · have hafter : ({ installation with unheard := unheard, handles := handles } :
        Installation K).stage id = .widened _ _ :=
      Installation.stage_widened hhears.resting hphase hheard
    rw [hhears.stage_of_post hlistening hinstalling hphase, hafter]
    exact .widened (hlocal ▸ hgained)

/-- Narrowing the gate within a cancellation pass keeps a node aligned. -/
theorem Aligned.narrowed {node : Node K} {installation : Installation K}
    {kept : SegmentLocality K} (haligned : node.Aligned)
    (hinstalling : node.installation = some installation)
    (hcancelling : installation.cancelling = some kept) :
    ({ node with scheduler := (node.scheduler.install kept.topology (.segments kept)).2 } :
      Node K).Aligned := by
  obtain ⟨listener, hlistening⟩ := haligned.listening
  obtain ⟨hlocal, hnewer, hcurrent, haudience, hunheard, hcancel⟩ :=
    haligned.installing installation hinstalling
  obtain ⟨-, rfl, -⟩ := hcancel kept hcancelling
  have hstage : installation.stage listener =
      .narrowing installation.transition.old installation.transition.new :=
    Installation.stage_narrowing hcancelling
  have hnarrowing := (stage_of_installing hlistening hinstalling).trans hstage
  rw [haligned.install_eq (by rw [hnarrowing]; rfl)]
  refine .regated (hlistening.congr rfl rfl rfl) hinstalling
    ⟨hlocal, hnewer, hcurrent, haudience, hunheard, hcancel⟩ hstage rfl rfl (Or.inr rfl) rfl ?_
  exact hnarrowing ▸ haligned.armed

/-- The end of a cancellation pass keeps a node aligned: what is still armed is owned on both
sides. -/
theorem Aligned.swept {node : Node K} {installation : Installation K} {kept : SegmentLocality K}
    (haligned : node.Aligned) (hinstalling : node.installation = some installation)
    (hcancelling : installation.cancelling = some kept) :
    ({ node with
      listener := node.listener.endLoss kept .zero
      scheduler := (node.scheduler.cancelUnowned kept.topology (.segments kept)).2
      installation := some { installation with cancelling := none } } : Node K).Aligned := by
  obtain ⟨listener, hlistening⟩ := haligned.listening
  obtain ⟨hlocal, hnewer, hcurrent, haudience, hunheard, hcancel⟩ :=
    haligned.installing installation hinstalling
  obtain ⟨hphase, rfl, hheard⟩ := hcancel kept hcancelling
  have hnarrowing : node.stage =
      .narrowing installation.transition.old installation.transition.new :=
    (stage_of_installing hlistening hinstalling).trans (Installation.stage_narrowing hcancelling)
  have hstage : ({ installation with cancelling := none } : Installation K).stage listener =
      .bridging installation.transition.old installation.transition.new :=
    Installation.stage_bridging_of_pre rfl hphase (hheard listener hlistening.registered)
  rw [Scheduler.cancelUnowned, haligned.install_eq (by rw [hnarrowing]; rfl)]
  refine .regated (hlistening.congr rfl rfl rfl) rfl
    ⟨hlocal, hnewer, hcurrent, haudience, hunheard, by simp⟩ hstage rfl rfl
    rfl rfl ?_
  intro arming hmem snapshot hbound
  obtain ⟨-, hkept⟩ := Scheduler.mem_armed_disarm.mp hmem
  have hboth : node.listener.partitioner.segmentOf arming.id ∈
      (installation.transition.new.primarySegments node.localNode).inter
        (installation.transition.old.primarySegments node.localNode) :=
    SegmentSet.contains_eq_true.mp (Bool.not_inj (hkept.trans Bool.not_true.symm))
  have hgates : Stage.Gates node.localNode _
      (.bridging installation.transition.old installation.transition.new) := rfl
  exact hgates.mem_bounds hboth hbound

/-- Hearing of a loss keeps a node aligned: nothing is given up before the cancellation pass. -/
theorem Aligned.lossBegun {node : Node K} {installation : Installation K} {id : ListenerId}
    {unheard : List ListenerId} {kept : SegmentLocality K} {lost : SegmentSet}
    (haligned : node.Aligned)
    (hhears : node.Hears installation id unheard (.losing kept lost)) :
    ({ node with
      listener := node.listener.beginLoss
      installation := some { installation with unheard := unheard, cancelling := some kept } } :
      Node K).Aligned := by
  obtain ⟨listener, hlistening⟩ := haligned.listening
  have hbelongs := haligned.installing installation hhears.installing
  obtain ⟨hphase, hkept⟩ := hhears.of_losing hbelongs
  obtain ⟨rfl, hheard⟩ := hhears.eq_listener hlistening hbelongs
  have hannounced := hhears.stage_of_pre hlistening hbelongs hphase
  have hleads : node.stage.Leads node.localNode
      (.narrowing installation.transition.old installation.transition.new) := by
    rw [hannounced]
    exact .narrowing
  refine haligned.leads (hlistening.congr rfl rfl rfl) rfl
    ⟨hbelongs.localNode, hbelongs.newer, hbelongs.current, hbelongs.audience,
      hbelongs.tail hhears.next, fun asked hasked => ?_⟩ rfl rfl rfl hleads
  obtain rfl := Option.some.inj hasked
  refine ⟨hphase, hkept, fun other hregistered => ?_⟩
  obtain rfl := Option.some.inj (hlistening.registered.symm.trans hregistered)
  exact hheard

/-- Taking up a gain keeps a node aligned: what is armed is owned on both sides, so also on the new
one. -/
theorem Aligned.takenUp {node : Node K} {installation : Installation K} {id : ListenerId}
    {unheard : List ListenerId} {old new : SegmentLocality K} {gained : SegmentSet}
    (haligned : node.Aligned) (handle : Handle)
    (hhears : node.Hears installation id unheard (.gained old new gained)) :
    ({ node with
      listener :=
        { node.listener with
          executor := (node.listener.executor.submit (.waiting old new)).2
          metrics := node.listener.metrics.setOwned new.segments.size }
      scheduler := (node.scheduler.install new.topology (.segments new)).2
      installation := some { installation with
        unheard := unheard, handles := installation.handles ++ [handle] } } : Node K).Aligned := by
  obtain ⟨listener, hlistening⟩ := haligned.listening
  have hbelongs := haligned.installing installation hhears.installing
  obtain ⟨hphase, -, rfl, -⟩ := hhears.of_gained hbelongs
  obtain ⟨rfl, hheard⟩ := hhears.eq_listener hlistening hbelongs
  have hbridging := hhears.stage_of_post hlistening hbelongs hphase
  rw [haligned.install_eq (by rw [hbridging]; rfl)]
  refine .regated (hlistening.congr rfl rfl rfl) rfl
    ⟨hbelongs.localNode, hbelongs.newer, hbelongs.current, hbelongs.audience,
      hbelongs.tail hhears.next, by simp [hhears.resting]⟩
    (Installation.stage_widened hhears.resting hphase hheard) rfl rfl rfl rfl ?_
  intro arming hmem snapshot hbound
  obtain rfl := List.mem_singleton.mp hbound
  refine haligned.armed arming hmem _ ?_
  rw [hbridging]
  exact List.mem_cons_of_mem _ List.mem_cons_self

/-- When the new snapshot takes effect a node stays aligned: it has nothing armed that it does not
own under both. -/
theorem Aligned.applied {node : Node K} {installation : Installation K} (haligned : node.Aligned)
    (hinstalling : node.installation = some installation)
    (hresting : installation.cancelling = none) (hheard : installation.unheard = [])
    (hphase : installation.phase = .pre) :
    ({ node with
      notifier := node.notifier.apply installation.transition
      installation := some { installation with
        phase := .post, unheard := installation.transition.audience, handles := [] } } :
      Node K).Aligned := by
  obtain ⟨listener, hlistening⟩ := haligned.listening
  obtain ⟨hlocal, hnewer, -, haudience, -, -⟩ := haligned.installing installation hinstalling
  have hunheard : installation.transition.audience <:+ node.notifier.listeners :=
    haudience ▸ List.suffix_rfl
  have hlisted : listener ∈ installation.transition.audience := haudience ▸ hlistening.listed
  have hbefore : node.stage =
      .bridging installation.transition.old installation.transition.new :=
    (stage_of_installing hlistening hinstalling).trans
      (Installation.stage_bridging_of_pre hresting hphase (by simp [hheard]))
  have hafter : ({ installation with
        phase := .post, unheard := installation.transition.audience, handles := [] } :
        Installation K).stage listener =
      .bridging installation.transition.old installation.transition.new :=
    Installation.stage_bridging_of_post hresting rfl hlisted
  have hleads : node.stage.Leads node.localNode
      (({ installation with
        phase := .post, unheard := installation.transition.audience, handles := [] } :
        Installation K).stage listener) := by
    rw [hbefore, hafter]
    exact .refl _
  exact haligned.leads (hlistening.congr rfl rfl rfl) rfl
    ⟨hlocal, hnewer, rfl, haudience, hunheard, by simp [hresting]⟩ rfl rfl rfl hleads

/-- At the end of an installation a node stays aligned: the new snapshot is all that counts. -/
theorem Aligned.ended {node : Node K} {installation : Installation K} (haligned : node.Aligned)
    (hinstalling : node.installation = some installation)
    (hdone : installation.isDone = true) :
    ({ node with installation := none } : Node K).Aligned := by
  obtain ⟨listener, hlistening⟩ := haligned.listening
  obtain ⟨hphase, hheard, hresting⟩ := Installation.isDone_eq_true.mp hdone
  have hcurrent : node.notifier.current = installation.transition.new := by
    rw [(haligned.installing installation hinstalling).current, hphase]
  have hwidened : node.stage = .widened installation.transition.old node.notifier.current := by
    rw [stage_of_installing hlistening hinstalling, hcurrent]
    exact Installation.stage_widened hresting hphase (by simp [hheard])
  obtain ⟨-, -, hgate, htopology, harmed⟩ := haligned
  rw [hwidened] at hgate htopology harmed
  refine ⟨⟨listener, hlistening.congr rfl rfl rfl⟩, fun later hlater => ?_, hgate, htopology,
    harmed⟩
  cases hlater

/-- Every advance of an installation keeps a node aligned. -/
theorem Aligned.installStep {before after : Node K} {action : NodeAction K}
    (haligned : before.Aligned) (hstep : before.InstallStep action after) : after.Aligned := by
  obtain ⟨listener, hlistening⟩ := haligned.listening
  cases hstep with
  | begun next hidle hnewer =>
      refine haligned.leads (hlistening.congr rfl rfl rfl) rfl
        ⟨rfl, hnewer, rfl, rfl, List.suffix_rfl, fun kept hkept => nomatch hkept⟩ rfl rfl rfl ?_
      rw [stage_of_idle hidle, Installation.stage_announced rfl rfl hlistening.listed]
      exact .announced hnewer
  | narrowed installation kept hinstalling hcancelling =>
      exact haligned.narrowed hinstalling hcancelling
  | swept installation kept hinstalling hcancelling =>
      exact haligned.swept hinstalling hcancelling
  | observed installation id unheard hinstalling hresting hnext hobserver =>
      have hother : listener ≠ id := fun hsame => hlistening.own (hsame ▸ hobserver)
      have hbelongs := haligned.installing installation hinstalling
      refine haligned.leads (hlistening.congr rfl rfl rfl) rfl
        ⟨hbelongs.localNode, hbelongs.newer, hbelongs.current, hbelongs.audience,
          hbelongs.tail hnext, by simp [hresting]⟩ rfl rfl rfl ?_
      rw [stage_of_installing hlistening hinstalling]
      simpa [Installation.stage, hnext, hother] using Stage.Leads.refl _
  | unaffected installation id unheard hhears =>
      have hbelongs := haligned.installing installation hhears.installing
      have hleads := hhears.leads_of_unchanged hlistening hbelongs
      exact haligned.leads (hlistening.congr rfl rfl rfl) rfl
        ⟨hbelongs.localNode, hbelongs.newer, hbelongs.current, hbelongs.audience,
          hbelongs.tail hhears.next, by simp [hhears.resting]⟩ rfl rfl rfl (hleads _)
  | lossBegun installation id unheard kept lost hhears =>
      exact haligned.lossBegun hhears
  | takenUp installation id unheard old new gained handle hhears =>
      exact haligned.takenUp handle hhears
  | applied installation hinstalling hresting hheard hphase =>
      exact haligned.applied hinstalling hresting hheard hphase
  | ended installation hinstalling hdone =>
      exact haligned.ended hinstalling hdone

/-- What a node that could be made looks like. -/
theorem new_eq_ok {localNode : NodeId} {initial : Snapshot} {partitioner : Partitioner K}
    {config : Config} {now : Instant} {fresh : Node K}
    (hnew : Node.new localNode initial partitioner config now = .ok fresh) :
    fresh =
      { notifier := .new localNode initial
        listener := ⟨partitioner, config, .new config.workerName, {}⟩
        scheduler := .new now
        store := {}
        registration := none
        observers := []
        seen := []
        installation := none } := by
  cases hvalid : config.validate with
  | error failure => simp [Node.new, Listener.new, hvalid, Except.map] at hnew
  | ok checked =>
      by_cases hcount : partitioner.segmentCount = config.segmentCount
      · simpa [Node.new, Listener.new, hvalid, hcount, Except.map] using hnew.symm
      · simp [Node.new, Listener.new, hvalid, hcount, Except.map] at hnew

/-- A node that has just registered its listener is aligned: nothing is armed, and the gate stands at
the initial snapshot. -/
theorem aligned_register {localNode : NodeId} {initial : Snapshot} {partitioner : Partitioner K}
    {config : Config} {now : Instant} {fresh : Node K}
    (hnew : Node.new localNode initial partitioner config now = .ok fresh) :
    fresh.register.Aligned ∧ fresh.register.localNode = localNode ∧
      fresh.register.listener.partitioner = partitioner := by
  obtain rfl := new_eq_ok hnew
  refine ⟨⟨⟨1, rfl, List.mem_singleton.mpr rfl, List.pairwise_singleton _ 1, ?_,
    List.not_mem_nil⟩, ?_, ⟨_, rfl, rfl, rfl⟩, ⟨_, rfl, UInt64.le_refl _⟩, ?_⟩, rfl, rfl⟩
  · exact fun other hmem _ => List.mem_singleton.mp hmem
  · exact fun installation hinstalling => nomatch hinstalling
  · exact fun arming hmem => nomatch hmem

/-- An aligned node is registered. -/
theorem Aligned.registered {node : Node K} (haligned : node.Aligned) :
    node.registration.isSome = true := by
  obtain ⟨listener, hlistening⟩ := haligned.listening
  rw [hlistening.registered]
  rfl

variable [DecidableEq K]

/-- Every step keeps a node aligned. -/
theorem Aligned.act {node : Node K} (haligned : node.Aligned) (action : NodeAction K) :
    (node.act action).Aligned := by
  rcases act_cases haligned.registered action with hquiet | hstep
  · exact haligned.quiet hquiet
  · exact haligned.installStep hstep

/-- Every run keeps a node aligned. -/
theorem Aligned.run {node : Node K} (haligned : node.Aligned) (actions : List (NodeAction K)) :
    (node.run actions).Aligned := by
  induction actions generalizing node with
  | nil => exact haligned
  | cons action later ih => exact ih (haligned.act action)

/-- A run changes neither the name of a node nor the segments of its keys. -/
theorem Aligned.run_identity {node : Node K} (haligned : node.Aligned)
    (actions : List (NodeAction K)) :
    (node.run actions).localNode = node.localNode ∧
      (node.run actions).listener.partitioner = node.listener.partitioner := by
  induction actions generalizing node with
  | nil => exact ⟨rfl, rfl⟩
  | cons action later ih =>
      obtain ⟨hlocal, hpartitioner⟩ := act_identity haligned.registered action
      obtain ⟨hlocal', hpartitioner'⟩ := ih (haligned.act action)
      exact ⟨hlocal'.trans hlocal, hpartitioner'.trans hpartitioner⟩

/-- Everything that a node has armed is primary for it under a snapshot. -/
def ArmsWithin (node : Node K) (partitioner : Partitioner K) (localNode : NodeId)
    (snapshot : Snapshot) : Prop :=
  ∀ arming ∈ node.scheduler.armed,
    partitioner.segmentOf arming.id ∈ snapshot.primarySegments localNode

/-- Whatever a registered node goes through, it arms only what it owns under the snapshot in effect,
and, from the end of the first announcement of a transition until it has heard the second, only what
it owns on both sides. -/
theorem run_armsWithin {localNode : NodeId} {initial : Snapshot} {partitioner : Partitioner K}
    {config : Config} {now : Instant} {fresh : Node K}
    (hnew : Node.new localNode initial partitioner config now = .ok fresh)
    (actions : List (NodeAction K)) :
    (fresh.register.run actions).ArmsWithin partitioner localNode
        (fresh.register.run actions).notifier.current ∧
      ∀ old new, (fresh.register.run actions).stage = .bridging old new →
        (fresh.register.run actions).ArmsWithin partitioner localNode old ∧
          (fresh.register.run actions).ArmsWithin partitioner localNode new := by
  obtain ⟨hstart, hlocal, hpartitioner⟩ := aligned_register hnew
  obtain ⟨hsame, hplaced⟩ := hstart.run_identity actions
  have haligned := hstart.run actions
  have hwithin : ∀ snapshot ∈ (fresh.register.run actions).stage.bounds,
      (fresh.register.run actions).ArmsWithin partitioner localNode snapshot := by
    intro snapshot hbound arming hmem
    rw [← hpartitioner, ← hplaced, ← hlocal, ← hsame]
    exact haligned.armed arming hmem snapshot hbound
  refine ⟨hwithin _ haligned.current_mem_bounds, fun old new hbridging => ?_⟩
  rw [hbridging] at hwithin
  exact ⟨hwithin old List.mem_cons_self, hwithin new (List.mem_cons_of_mem _ List.mem_cons_self)⟩

/-- A pass has an entry of segment 1 in hand when the second transition takes segment 1 away; it goes
on after the gate was narrowed, and before everything else is taken back. -/
def resumedRun (second third : Snapshot) : List (NodeAction UInt64) :=
  [.store 0 50, .schedule 0 50, .store 1 60, .store 5 60,
    .beginInstall second, .advanceInstall, .advanceInstall, .advanceInstall, .advanceInstall,
    .takeNext, .passStep 0, .passStep 0, .passStep 0, .passStep 0, .passStep 0,
    .beginInstall third, .advanceInstall, .narrowGate, .passStep 0, .schedule 9 70,
    .advanceInstall, .advance 10]

/-- After such a run the node stands between the two snapshots and has only its entry of segment 0
armed. -/
theorem run_armsWithin_resumedRun :
    ∃ second third fresh, Node.new 0 (.ofParts 1 [0, 1] [[0], [1], [1], [1]]) (.modulo 4)
        { segmentCount := 4 } 0 = .ok fresh ∧
      (fresh.register.run (resumedRun second third)).stage = .bridging second third ∧
      (fresh.register.run (resumedRun second third)).scheduler.ids = [0] ∧
      (fresh.register.run (resumedRun second third)).ArmsWithin (.modulo 4) 0 second ∧
      (fresh.register.run (resumedRun second third)).ArmsWithin (.modulo 4) 0 third := by
  refine ⟨.ofParts 2 [0, 1] [[0], [0], [1], [1]], .ofParts 3 [0, 1] [[0], [1], [0], [1]], _, rfl,
    rfl, rfl, ?_⟩
  have hnew : Node.new 0 (.ofParts 1 [0, 1] [[0], [1], [1], [1]]) (.modulo 4)
      { segmentCount := 4 } 0 = .ok _ := rfl
  exact (run_armsWithin hnew _).2 _ _ rfl

end Node

end Custody
