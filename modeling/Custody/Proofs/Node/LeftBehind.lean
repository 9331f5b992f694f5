/-
# What a node at rest has armed

When nothing is being installed and no pass is left, a node that nobody has disturbed has armed what
is stored and owned, with one exception.  An announcement that supersedes a pass drops what that pass
had still ahead, and the pass of the new transition looks only at what this transition gains.  An
entry that was dropped in this way, and that nothing has restored since, is left behind: it is stored
and owned, and it is not armed.
-/

import Mathlib.Data.List.Induction
import Custody.Proofs.Node.Coverage
import Custody.Proofs.Snapshot

namespace Custody

namespace Node

variable {K : Type} [DecidableEq K]

/-- An entry is left behind by a run if a step dropped it and none has restored it since. -/
inductive LeftBehind (start : Node K) (id : K) : List (NodeAction K) → Prop where
  | dropped {before : List (NodeAction K)} {action : NodeAction K}
      (hdrops : (start.run before).Drops action id) : LeftBehind start id (before ++ [action])
  | stays {before : List (NodeAction K)} {action : NodeAction K}
      (hleft : LeftBehind start id before) (hnot : ¬ (start.run before).Restores action id) :
      LeftBehind start id (before ++ [action])

/-- Whether no step of a run disturbs a node. -/
def Undisturbed (horizon : Instant) : Node K → List (NodeAction K) → Prop
  | _, [] => True
  | node, action :: later =>
      node.Admits horizon action ∧ Undisturbed horizon (node.act action) later

instance (node : Node K) (horizon : Instant) : (action : NodeAction K) →
    Decidable (node.Admits horizon action)
  | .store _ deadline => inferInstanceAs (Decidable (horizon < deadline))
  | .schedule id deadline =>
      inferInstanceAs (Decidable (node.store.contains id = true ∧ horizon < deadline))
  | .advance elapsed => inferInstanceAs (Decidable (node.scheduler.now + elapsed ≤ horizon))
  | .unstore _ | .cancel _ | .failNext _ => .isFalse id
  | .beginInstall _ | .narrowGate | .advanceInstall | .register | .takeNext
  | .noticeCancellation | .passStep _ | .setPaused _ => .isTrue trivial

instance instDecidableUndisturbed (horizon : Instant) : (node : Node K) → (actions : List (NodeAction K)) →
    Decidable (node.Undisturbed horizon actions)
  | _, [] => .isTrue trivial
  | node, action :: later =>
      have := instDecidableUndisturbed horizon (node.act action) later
      inferInstanceAs (Decidable (node.Admits horizon action ∧
        (node.act action).Undisturbed horizon later))

variable {start : Node K} {horizon : Instant} {before : List (NodeAction K)}
  {action : NodeAction K} {id : K}

theorem run_append (start : Node K) (before : List (NodeAction K)) (action : NodeAction K) :
    start.run (before ++ [action]) = (start.run before).act action := by
  simp [run]

theorem undisturbed_append : start.Undisturbed horizon (before ++ [action]) ↔
    start.Undisturbed horizon before ∧ (start.run before).Admits horizon action := by
  induction before generalizing start with
  | nil => simp [Undisturbed, run]
  | cons first later ih => simp [Undisturbed, ih, run, and_assoc]

theorem not_leftBehind_nil : ¬ start.LeftBehind id [] := by
  generalize hnil : ([] : List (NodeAction K)) = actions
  intro hleft
  cases hleft with
  | dropped hdrops => simp at hnil
  | stays hleft hnot => simp at hnil

theorem leftBehind_append : start.LeftBehind id (before ++ [action]) ↔
    (start.run before).Drops action id ∨
      start.LeftBehind id before ∧ ¬ (start.run before).Restores action id := by
  constructor
  · generalize hactions : before ++ [action] = actions
    intro hleft
    cases hleft with
    | dropped hdrops =>
        obtain ⟨rfl, hsame⟩ := List.append_inj' hactions rfl
        obtain rfl := (List.cons.inj hsame).1
        exact Or.inl hdrops
    | stays hleft hnot =>
        obtain ⟨rfl, hsame⟩ := List.append_inj' hactions rfl
        obtain rfl := (List.cons.inj hsame).1
        exact Or.inr ⟨hleft, hnot⟩
  · rintro (hdrops | ⟨hleft, hnot⟩)
    · exact .dropped hdrops
    · exact .stays hleft hnot

omit [DecidableEq K] in
theorem InstallStep.store {node after : Node K} (hstep : node.InstallStep action after) :
    after.store = node.store := by
  cases hstep <;> rfl

theorem Tidy.entries_stepWork {node : Node K} (htidy : node.Tidy horizon)
    (pass : Pass (SchedulingPass K)) :
    (node.stepWork pass).store.entries = node.store.entries := by
  cases hwork : pass.work with
  | waiting old new =>
      simp only [Node.stepWork, hwork]
      split <;> rfl
  | asking gained =>
      simp only [Node.stepWork, hwork, SchedulingPass.answer_eq htidy.calm.unfailing]
      split <;> rfl
  | _ => simp only [Node.stepWork, hwork, withExecutor]

/-- Only a step that stores something changes what is stored. -/
theorem Tidy.entries_act {node : Node K} (htidy : node.Tidy horizon)
    (hadmits : node.Admits horizon action) (hother : ∀ id deadline, action ≠ .store id deadline) :
    (node.act action).store.entries = node.store.entries := by
  cases action with
  | store id deadline => exact absurd rfl (hother id deadline)
  | unstore id => exact hadmits.elim
  | beginInstall next =>
      rcases act_beginInstall node next with hsame | hstep
      · rw [hsame]
      · rw [hstep.store]
  | narrowGate =>
      rcases act_narrowGate node with hsame | hstep
      · rw [hsame]
      · rw [hstep.store]
  | advanceInstall =>
      rcases act_advanceInstall node with hsame | hstep
      · rw [hsame]
      · rw [hstep.store]
  | register => rw [act_register htidy.aligned.registered]
  | passStep number =>
      simp only [Node.act]
      split
      · exact htidy.entries_stepWork _
      · rfl
  | _ => rfl

/-- An entry is stored after a step if it was stored before, or is stored by the step. -/
theorem Tidy.contains_act {node : Node K} (htidy : node.Tidy horizon)
    (hadmits : node.Admits horizon action) : (node.act action).store.contains id = true ↔
      node.store.contains id = true ∨ ∃ deadline, action = .store id deadline := by
  by_cases hstores : ∃ other deadline, action = .store other deadline
  · obtain ⟨other, deadline, rfl⟩ := hstores
    rw [show (node.act (.store other deadline)).store = node.store.insert other deadline from rfl,
      Store.contains_insert]
    constructor
    · rintro (rfl | hbefore)
      · exact Or.inr ⟨deadline, rfl⟩
      · exact Or.inl hbefore
    · rintro (hbefore | ⟨_, hsame⟩)
      · exact Or.inr hbefore
      · exact Or.inl (NodeAction.store.inj hsame).1.symm
  · have hother : ∀ other deadline, action ≠ .store other deadline :=
      fun other deadline hsame => hstores ⟨other, deadline, hsame⟩
    have hnot : ¬ ∃ deadline, action = .store id deadline :=
      fun ⟨deadline, hsame⟩ => hother id deadline hsame
    simp only [Store.contains, htidy.entries_act hadmits hother, hnot, or_false]

/-- What a run that did not disturb a node has left it in: whatever was asked for is minded or left
behind, and what was left behind is neglected. -/
structure Tended (start : Node K) (horizon : Instant) (actions : List (NodeAction K)) : Prop where
  tidy : (start.run actions).Tidy horizon
  stored : ∀ id, (start.run actions).store.contains id = true →
    ∃ deadline, .store id deadline ∈ actions
  asked : ∀ id deadline, .schedule id deadline ∈ actions →
    (start.run actions).store.contains id = true
  minded : ∀ id deadline, .schedule id deadline ∈ actions →
    (start.run actions).Minds id ∨ start.LeftBehind id actions
  left : ∀ id, start.LeftBehind id actions →
    (start.run actions).store.contains id = true ∧ (start.run actions).Neglects id

/-- A node with an empty store is tended before anything happens. -/
theorem Tidy.tended (htidy : start.Tidy horizon) (hempty : start.store.entries = []) :
    start.Tended horizon [] where
  tidy := htidy
  stored id hstored := by simp [run, Store.contains, hempty] at hstored
  asked _ _ hmem := nomatch hmem
  minded _ _ hmem := nomatch hmem
  left _ hleft := absurd hleft not_leftBehind_nil

theorem Tended.minded_act (htended : start.Tended horizon before)
    (hadmits : (start.run before).Admits horizon action) {deadline : Instant}
    (hmem : .schedule id deadline ∈ before ++ [action]) :
    ((start.run before).act action).Minds id ∨ start.LeftBehind id (before ++ [action]) := by
  by_cases hrestores : (start.run before).Restores action id
  · exact Or.inl (htended.tidy.minds_of_restores hrestores)
  · rcases List.mem_append.mp hmem with hbefore | hnow
    · rcases htended.minded id deadline hbefore with hminds | hleft
      · have hstored := htended.asked id deadline hbefore
        rcases htended.tidy.minds_act hadmits hstored hminds with hstill | hdrops
        · exact Or.inl hstill
        · exact Or.inr (.dropped hdrops)
      · exact Or.inr (.stays hleft hrestores)
    · have hasked : (start.run before).Restores action id :=
        Or.inl ⟨deadline, (List.mem_singleton.mp hnow).symm⟩
      exact absurd hasked hrestores

theorem Tended.left_act (htended : start.Tended horizon before)
    (hadmits : (start.run before).Admits horizon action)
    (hleft : start.LeftBehind id (before ++ [action])) :
    (start.run before).store.contains id = true ∧ ((start.run before).act action).Neglects id := by
  rcases leftBehind_append.mp hleft with hdrops | ⟨hbefore, hnot⟩
  · exact ⟨hdrops.stored, htended.tidy.neglects_of_drops hdrops⟩
  · obtain ⟨hstored, hneglects⟩ := htended.left id hbefore
    exact ⟨hstored, htended.tidy.neglects_act hadmits hstored hnot hneglects⟩

/-- Every step that does not disturb a node leaves it tended. -/
theorem Tended.act (htended : start.Tended horizon before)
    (hadmits : (start.run before).Admits horizon action) :
    start.Tended horizon (before ++ [action]) := by
  have htidy := htended.tidy
  have hkept : ∀ id, (start.run before).store.contains id = true →
      ((start.run before).act action).store.contains id = true :=
    fun id hstored => (htidy.contains_act hadmits).mpr (Or.inl hstored)
  constructor
  case tidy =>
    rw [run_append]
    exact htidy.act hadmits
  case stored =>
    intro id hstored
    rw [run_append] at hstored
    rcases (htidy.contains_act hadmits).mp hstored with hbefore | ⟨deadline, rfl⟩
    · obtain ⟨deadline, hmem⟩ := htended.stored id hbefore
      exact ⟨deadline, List.mem_append_left _ hmem⟩
    · exact ⟨deadline, List.mem_append_right _ (List.mem_singleton.mpr rfl)⟩
  case asked =>
    intro id deadline hmem
    rw [run_append]
    rcases List.mem_append.mp hmem with hbefore | hnow
    · exact hkept id (htended.asked id deadline hbefore)
    · obtain rfl := List.mem_singleton.mp hnow
      exact hkept id hadmits.1
  case minded =>
    intro id deadline hmem
    rw [run_append]
    exact htended.minded_act hadmits hmem
  case left =>
    intro id hleft
    rw [run_append]
    obtain ⟨hstored, hneglects⟩ := htended.left_act hadmits hleft
    exact ⟨hkept id hstored, hneglects⟩

/-- A run that does not disturb a node leaves it tended. -/
theorem Tidy.run (htidy : start.Tidy horizon) (hempty : start.store.entries = [])
    {actions : List (NodeAction K)} (hundisturbed : start.Undisturbed horizon actions) :
    start.Tended horizon actions := by
  induction actions using List.reverseRecOn with
  | nil => exact htidy.tended hempty
  | append_singleton before action ih =>
      obtain ⟨hbefore, hadmits⟩ := undisturbed_append.mp hundisturbed
      exact (ih hbefore).act hadmits

/-- Nothing is being installed, and no pass is left. -/
structure AtRest (node : Node K) : Prop where
  idle : node.installation = none
  drained : node.listener.executor.live = []

omit [DecidableEq K] in
theorem AtRest.not_covers {node : Node K} (hrest : node.AtRest) (id : K) :
    ¬ node.listener.executor.Covers id := by
  rintro ⟨pass, hpass, -⟩
  rw [hrest.drained] at hpass
  cases hpass

omit [DecidableEq K] in
/-- At rest the gate owns what is primary under the snapshot in effect. -/
theorem Aligned.owns_of_idle {node : Node K} (haligned : node.Aligned)
    (hidle : node.installation = none) (id : K) : node.scheduler.gate.locality.owns id = true ↔
      node.listener.partitioner.segmentOf id ∈
        node.notifier.current.primarySegments node.localNode := by
  obtain ⟨locality, hgate, hpartitioner, hgates⟩ := haligned.gate
  rw [stage_of_idle hidle] at hgates
  rw [hgate, ← hpartitioner, ← show locality.segments = _ from hgates]
  exact SegmentSet.contains_eq_true

/-- A node that has just registered is tidy, and its store is empty. -/
theorem tidy_register {localNode : NodeId} {initial : Snapshot} {partitioner : Partitioner K}
    {config : Config} {now : Instant} {fresh : Node K}
    (hnew : Node.new localNode initial partitioner config now = .ok fresh) (horizon : Instant) :
    fresh.register.Tidy horizon ∧ fresh.register.store.entries = [] := by
  have haligned := (aligned_register hnew).1
  obtain rfl := new_eq_ok hnew
  refine ⟨⟨haligned, Executor.orderly_new _, ?_, ?_, rfl, ?_, rfl, ?_⟩, rfl⟩
  · exact fun work hmem => nomatch hmem
  · exact fun pass hmem => nomatch hmem
  · exact fun arming hmem => nomatch hmem
  · exact fun entry hmem => nomatch hmem

/-- A tended node at rest has armed what was asked for and is owned, unless it was left behind. -/
theorem Tended.armed_iff {actions : List (NodeAction K)} (htended : start.Tended horizon actions)
    (hasked : ∀ id deadline, .store id deadline ∈ actions → ∃ due, .schedule id due ∈ actions)
    (hrest : (start.run actions).AtRest) (id : K) :
    (start.run actions).scheduler.contains id = true ↔
      (start.run actions).store.contains id = true ∧
        (start.run actions).scheduler.gate.locality.owns id = true ∧
          ¬ start.LeftBehind id actions := by
  have haligned := htended.tidy.aligned
  constructor
  · intro harmed
    obtain ⟨arming, hmem, rfl⟩ := Scheduler.contains_eq_true.mp harmed
    refine ⟨(htended.tidy.calm.armed arming hmem).1, ?_, fun hleft => ?_⟩
    · rw [haligned.owns_of_idle hrest.idle]
      exact haligned.armed arming hmem _ haligned.current_mem_bounds
    · have hunarmed := (htended.left _ hleft).2.1
      exact Bool.false_ne_true (hunarmed.symm.trans harmed)
  · rintro ⟨hstored, howns, hnot⟩
    obtain ⟨deadline, hstore⟩ := htended.stored id hstored
    obtain ⟨due, hschedule⟩ := hasked id deadline hstore
    rcases htended.minded id due hschedule with (harmed | hforeign | hcovers) | hleft
    · exact harmed
    · exact absurd (hforeign.symm.trans howns) Bool.false_ne_true
    · exact absurd hcovers (hrest.not_covers id)
    · exact absurd hleft hnot

/-- When a node that nobody disturbed comes to rest, it has armed the stored entries of which it is
the primary owner, but for those that were left behind. -/
theorem run_armed_iff_not_leftBehind {localNode : NodeId} {initial : Snapshot}
    {partitioner : Partitioner K} {config : Config} {now horizon : Instant} {fresh : Node K}
    {actions : List (NodeAction K)}
    (hnew : Node.new localNode initial partitioner config now = .ok fresh)
    (hundisturbed : fresh.register.Undisturbed horizon actions)
    (hasked : ∀ id deadline, .store id deadline ∈ actions → ∃ due, .schedule id due ∈ actions)
    (hinitial : initial.Checked) (hbegun : ∀ next, .beginInstall next ∈ actions → next.Checked)
    (hrest : (fresh.register.run actions).AtRest) (id : K) :
    (fresh.register.run actions).scheduler.contains id = true ↔
      (fresh.register.run actions).store.contains id = true ∧
        (fresh.register.run actions).notifier.current.primaryOwner (partitioner.segmentOf id) =
          some localNode ∧
            ¬ fresh.register.LeftBehind id actions := by
  obtain ⟨hstart, hlocal, hpartitioner⟩ := aligned_register hnew
  obtain ⟨hsame, hplaced⟩ := hstart.run_identity actions
  obtain ⟨htidy, hempty⟩ := tidy_register hnew horizon
  have htended := htidy.run hempty hundisturbed
  have hinitially : fresh.register.stage.Among Snapshot.Checked := by
    obtain rfl := new_eq_ok hnew
    exact hinitial
  have hchecked : (fresh.register.run actions).notifier.current.Checked := by
    have hamong := hstart.run_among hinitially hbegun
    rwa [stage_of_idle hrest.idle] at hamong
  rw [htended.armed_iff hasked hrest id, htended.tidy.aligned.owns_of_idle hrest.idle,
    hchecked.mem_primarySegments, hplaced, hpartitioner, hsame, hlocal]

/-- The snapshot in which the first of two nodes has as many of four segments. -/
def growing (count : Nat) : Snapshot :=
  .ofParts (UInt64.ofNat count) [0, 1]
    ((List.range 4).map fun segment => if segment < count then [0] else [1])

/-- Three entries are stored, of which the node owns the first.  The pass for the second waits for the
store when the next transition supersedes it, and the pass for the third runs to its end. -/
def supersedingRun : List (NodeAction UInt64) :=
  [.store 0 50, .schedule 0 50, .store 1 60, .schedule 1 60, .store 2 70, .schedule 2 70,
    .setPaused true, .beginInstall (growing 2), .advanceInstall, .advanceInstall, .advanceInstall,
    .advanceInstall, .takeNext, .passStep 0, .passStep 0,
    .beginInstall (growing 3), .advanceInstall, .advanceInstall, .advanceInstall, .advanceInstall,
    .noticeCancellation, .setPaused false, .advance 10, .passStep 0, .passStep 0, .passStep 0,
    .takeNext, .passStep 1, .passStep 1, .passStep 1, .passStep 1, .passStep 1, .passStep 1]

/-- The first of two nodes, before its listener registers. -/
def growingNode : Node UInt64 where
  notifier := .new 0 (growing 1)
  listener := ⟨.modulo 4, { segmentCount := 4 }, .new "scheduler-reconciler", {}⟩
  scheduler := .new 0
  store := {}
  registration := none
  observers := []
  seen := []
  installation := none

theorem new_growingNode :
    Node.new 0 (growing 1) (.modulo 4) { segmentCount := 4 } 0 = .ok growingNode := rfl

theorem undisturbed_supersedingRun : growingNode.register.Undisturbed 40 supersedingRun := by
  decide +kernel

theorem atRest_supersedingRun : (growingNode.register.run supersedingRun).AtRest where
  idle := Option.isNone_iff_eq_none.mp (by decide +kernel)
  drained := List.isEmpty_iff.mp (by decide +kernel)

theorem unarmed_supersedingRun :
    (growingNode.register.run supersedingRun).scheduler.contains 1 = false := by
  decide +kernel

theorem owned_supersedingRun : (growingNode.register.run supersedingRun).store.contains 1 = true ∧
    (growingNode.register.run supersedingRun).notifier.current.primaryOwner
      ((Partitioner.modulo 4).segmentOf 1) = some 0 := by
  decide +kernel

/-- The second entry is left behind by such a run, although it was asked for. -/
theorem run_armed_iff_not_leftBehind_supersedingRun :
    Node.new 0 (growing 1) (.modulo 4) { segmentCount := 4 } 0 = .ok growingNode ∧
      growingNode.register.Undisturbed 40 supersedingRun ∧
      (growingNode.register.run supersedingRun).AtRest ∧
      growingNode.register.LeftBehind 1 supersedingRun := by
  refine ⟨new_growingNode, undisturbed_supersedingRun, atRest_supersedingRun, ?_⟩
  have hasked : ∀ id deadline, .store id deadline ∈ supersedingRun →
      ∃ due, .schedule id due ∈ supersedingRun := by
    intro id deadline hmem
    exact ⟨deadline, by simpa [supersedingRun] using hmem⟩
  have hinitial : (growing 1).Checked := ⟨1, [0, 1], [[0], [1], [1], [1]], rfl⟩
  have hsecond : (growing 2).Checked := ⟨2, [0, 1], [[0], [0], [1], [1]], rfl⟩
  have hthird : (growing 3).Checked := ⟨3, [0, 1], [[0], [0], [0], [1]], rfl⟩
  have hbegun : ∀ next, .beginInstall next ∈ supersedingRun → next.Checked := by
    intro next hmem
    have hwhich : next = growing 2 ∨ next = growing 3 := by simpa [supersedingRun] using hmem
    rcases hwhich with rfl | rfl
    · exact hsecond
    · exact hthird
  have hiff := run_armed_iff_not_leftBehind new_growingNode undisturbed_supersedingRun hasked
    hinitial hbegun atRest_supersedingRun 1
  obtain ⟨hstored, howner⟩ := owned_supersedingRun
  by_contra hnot
  have harmed := hiff.mpr ⟨hstored, howner, hnot⟩
  exact Bool.false_ne_true (unarmed_supersedingRun.symm.trans harmed)

/-- A stored entry of which the node is the primary owner need not be armed at rest, although nothing
disturbed the node. -/
theorem exists_owned_unarmed_atRest : ∃ (fresh : Node UInt64) (actions : List (NodeAction UInt64)),
    Node.new 0 (growing 1) (.modulo 4) { segmentCount := 4 } 0 = .ok fresh ∧
      fresh.register.Undisturbed 40 actions ∧
      (fresh.register.run actions).AtRest ∧
      (fresh.register.run actions).notifier.current = growing 3 ∧
      (fresh.register.run actions).store.contains 1 = true ∧
      (fresh.register.run actions).notifier.current.primaryOwner
        ((Partitioner.modulo 4).segmentOf 1) = some 0 ∧
      (fresh.register.run actions).scheduler.contains 1 = false := by
  refine ⟨growingNode, supersedingRun, new_growingNode, undisturbed_supersedingRun,
    atRest_supersedingRun, by decide +kernel, owned_supersedingRun.1, owned_supersedingRun.2, ?_⟩
  exact unarmed_supersedingRun

end Node

end Custody
