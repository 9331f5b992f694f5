/-
# What a history of steps builds

While a snapshot is being built, every step changes the owners of its segments in place.  What is there
in the end depends on the whole history, but can be told from it at once: the owners of a segment are
the nodes that some step made its primary owner, the latest first, and behind them the nodes that were
only made backups, in the order in which this happened first.  A segment outside the key space stops
nothing on the way, and the first one in the history refuses the snapshot.

Nothing else does.  Whoever owns a segment was named by the step that gave it to him, and no list of
owners has a node twice, so that the checks at the end always pass.
-/

import Mathlib.Data.List.Induction
import Custody.Snapshot.Builder
import Custody.Proofs.FirstOccurrences
import Custody.Proofs.Snapshot

namespace Custody

namespace BuildStep

/-- The node that a step names. -/
def node : BuildStep → NodeId
  | member node | primary node _ | backup node _ => node

/-- The segments that a step gives to its node, in order. -/
def segments : BuildStep → List SegmentId
  | member _ => []
  | primary _ segments | backup _ segments => segments

/-- The node that a step makes the primary owner of a segment, if it does that. -/
def promoting (segment : SegmentId) : BuildStep → Option NodeId
  | primary node segments => if segment ∈ segments then some node else none
  | member _ | backup _ _ => none

/-- The node that a step makes a backup owner of a segment, if it does that. -/
def backing (segment : SegmentId) : BuildStep → Option NodeId
  | backup node segments => if segment ∈ segments then some node else none
  | member _ | primary _ _ => none

/-- The first segment outside the key space that some steps name. -/
def firstBeyond (segmentCount : Nat) (steps : List BuildStep) : Option SegmentId :=
  (steps.flatMap segments).find? (segmentCount ≤ ·)

/-- The nodes that were made the primary owner of a segment, those of the latest steps first. -/
def promoted (steps : List BuildStep) (segment : SegmentId) : List NodeId :=
  (steps.reverse.filterMap (promoting segment)).eraseDups

/-- The nodes that were made backup owners of a segment, those of the earliest steps first. -/
def backed (steps : List BuildStep) (segment : SegmentId) : List NodeId :=
  (steps.filterMap (backing segment)).eraseDups

/-- The owners of a segment as the history of steps tells them: whoever was made its primary owner, and
then whoever was made a backup only. -/
def owners (steps : List BuildStep) (segment : SegmentId) : List NodeId :=
  promoted steps segment ++ (backed steps segment).filter (· ∉ promoted steps segment)

/-- What a step makes of the owners of one segment. -/
def reassign (step : BuildStep) (segment : SegmentId) (owners : List NodeId) : List NodeId :=
  match step with
  | member _ => owners
  | primary node segments =>
      if segment ∈ segments then SnapshotBuilder.promote node owners else owners
  | backup node segments =>
      if segment ∈ segments then SnapshotBuilder.append node owners else owners

end BuildStep

namespace SnapshotBuilder

open BuildStep

/-- A node that is promoted again stays where it is. -/
theorem promote_promote (node : NodeId) (owners : List NodeId) :
    promote node (promote node owners) = promote node owners := by
  simp [promote]

/-- A node that is a backup already is not appended again. -/
theorem append_append (node : NodeId) (owners : List NodeId) :
    append node (append node owners) = append node owners := by
  have hcontains : (append node owners).contains node = true := by
    unfold append
    split
    · next hthere => exact hthere
    · simp
  rw [append, if_pos hcontains]

/-- Promoting a node moves it from either of two parts to the front of the first. -/
theorem promote_parts (node : NodeId) (first second : List NodeId) :
    promote node (first ++ second.filter (· ∉ first)) =
      promote node first ++ second.filter (· ∉ promote node first) := by
  rw [promote, promote, List.filter_append, List.filter_filter, List.cons_append]
  congr 2
  refine List.filter_congr fun other _ => ?_
  by_cases hsame : other = node <;> simp [hsame]

/-- Appending a node puts it at the end of the second of two parts, unless one of them has it. -/
theorem append_parts (node : NodeId) (first second : List NodeId) :
    append node (first ++ second.filter (· ∉ first)) =
      first ++ (append node second).filter (· ∉ first) := by
  unfold append
  by_cases hfirst : node ∈ first
  · by_cases hsecond : node ∈ second <;> simp [hfirst, hsecond]
  · by_cases hsecond : node ∈ second <;> simp [hfirst, hsecond]

/-- A list is kept when every item is kept at its place. -/
theorem mapIdx_eq_self {α : Type} {change : Nat → α → α} {items : List α}
    (hkept : ∀ place < items.length, ∀ item, change place item = item) :
    items.mapIdx change = items := by
  refine List.ext_getElem (List.length_mapIdx ..) fun place _ hplace => ?_
  rw [List.getElem_mapIdx, hkept place hplace]

/-- Assigning a segment changes its owners if it exists, and is remembered otherwise. -/
theorem assign_eq (change : List NodeId → List NodeId) (builder : SnapshotBuilder)
    (segment : SegmentId) :
    assign change builder segment =
      { builder with
        owners := builder.owners.mapIdx fun place owners =>
          if place = segment then change owners else owners
        outOfRange := builder.outOfRange.or
          (if builder.owners.length ≤ segment then some segment else none) } := by
  unfold assign
  split
  · next hinside =>
      rw [if_neg (Nat.not_le.mpr hinside), Option.or_none]
      congr 1
      refine List.ext_getElem? fun place => ?_
      rw [List.getElem?_modify, List.getElem?_mapIdx]
      simp only [eq_comm]
      split <;> rfl
  · next houtside =>
      have hbeyond : builder.owners.length ≤ segment := Nat.not_lt.mp houtside
      rw [if_pos hbeyond]
      congr 1
      exact (mapIdx_eq_self fun place hplace owners => if_neg (by omega)).symm

/-- Going through some segments changes the owners of those that exist, once, however often they are
named, and remembers the first that does not. -/
theorem foldl_assign {change : List NodeId → List NodeId}
    (hagain : ∀ owners, change (change owners) = change owners) (segments : List SegmentId)
    (builder : SnapshotBuilder) :
    segments.foldl (assign change) builder =
      { builder with
        owners := builder.owners.mapIdx fun place owners =>
          if place ∈ segments then change owners else owners
        outOfRange := builder.outOfRange.or (segments.find? (builder.owners.length ≤ ·)) } := by
  induction segments generalizing builder with
  | nil =>
      rw [mapIdx_eq_self fun _ _ _ => if_neg List.not_mem_nil, List.find?_nil, Option.or_none,
        List.foldl_nil]
  | cons segment segments ih =>
      rw [List.foldl_cons, ih, assign_eq]
      simp only [List.length_mapIdx, List.mapIdx_mapIdx, Option.or_assoc, SnapshotBuilder.mk.injEq,
        true_and]
      constructor
      · congr 1
        funext place owners
        by_cases hplace : place = segment <;> by_cases hlater : place ∈ segments <;>
          simp [hplace, hlater, hagain]
      · by_cases hbeyond : builder.owners.length ≤ segment <;> simp [hbeyond]

/-- What one step does: it names a node, reassigns the segments, and remembers the first that lies
outside the key space unless there was one before. -/
theorem step_eq (builder : SnapshotBuilder) (step : BuildStep) :
    builder.step step =
      { builder with
        members := step.node :: builder.members
        owners := builder.owners.mapIdx step.reassign
        outOfRange :=
          builder.outOfRange.or (step.segments.find? (builder.owners.length ≤ ·)) } := by
  cases step with
  | member node =>
      have hkept : builder.owners.mapIdx (member node).reassign = builder.owners :=
        mapIdx_eq_self fun _ _ _ => rfl
      simp [SnapshotBuilder.step, named, BuildStep.node, segments, hkept]
  | primary node segments =>
      exact foldl_assign (promote_promote node) segments (builder.named node)
  | backup node segments => exact foldl_assign (append_append node) segments (builder.named node)

end SnapshotBuilder

namespace BuildStep

variable {steps : List BuildStep} {step : BuildStep} {segment : SegmentId} {node : NodeId}

/-- No segment has an owner twice. -/
theorem nodup_owners (steps : List BuildStep) (segment : SegmentId) :
    (owners steps segment).Nodup := by
  refine List.nodup_append.mpr ⟨nodup_eraseDups _, (nodup_eraseDups _).filter _, ?_⟩
  rintro first hfirst second hsecond rfl
  exact of_decide_eq_true (List.mem_filter.mp hsecond).2 hfirst

theorem node_of_promoting (hpromotes : step.promoting segment = some node) : step.node = node := by
  cases step with
  | member | backup => cases hpromotes
  | primary => exact (Option.ite_none_right_eq_some.mp hpromotes).2 |> Option.some.inj

theorem node_of_backing (hbacks : step.backing segment = some node) : step.node = node := by
  cases step with
  | member | primary => cases hbacks
  | backup => exact (Option.ite_none_right_eq_some.mp hbacks).2 |> Option.some.inj

/-- Whoever owns a segment was named by a step. -/
theorem exists_node_of_mem_owners (howner : node ∈ owners steps segment) :
    ∃ step ∈ steps, step.node = node := by
  rcases List.mem_append.mp howner with hpromoted | hbacked
  · obtain ⟨step, hmem, hpromotes⟩ := List.mem_filterMap.mp (List.mem_eraseDups.mp hpromoted)
    exact ⟨step, List.mem_reverse.mp hmem, node_of_promoting hpromotes⟩
  · obtain ⟨step, hmem, hbacks⟩ :=
      List.mem_filterMap.mp (List.mem_eraseDups.mp (List.mem_filter.mp hbacked).1)
    exact ⟨step, hmem, node_of_backing hbacks⟩

/-- A step that promotes a node puts it in front of those promoted before. -/
theorem promoted_concat (steps : List BuildStep) (step : BuildStep) (segment : SegmentId) :
    promoted (steps ++ [step]) segment =
      match step.promoting segment with
      | some node => SnapshotBuilder.promote node (promoted steps segment)
      | none => promoted steps segment := by
  simp only [promoted, List.reverse_append, List.reverse_singleton, List.singleton_append,
    List.filterMap_cons]
  cases step.promoting segment with
  | none => rfl
  | some node =>
      dsimp only
      rw [List.eraseDups_cons, eraseDups_filter, SnapshotBuilder.promote]
      congr 1
      refine List.filter_congr fun other _ => ?_
      rw [beq_eq_decide, decide_not]

/-- A step that makes a node a backup puts it behind those that were backups before. -/
theorem backed_concat (steps : List BuildStep) (step : BuildStep) (segment : SegmentId) :
    backed (steps ++ [step]) segment =
      match step.backing segment with
      | some node => SnapshotBuilder.append node (backed steps segment)
      | none => backed steps segment := by
  rw [backed, List.filterMap_append, List.filterMap_cons]
  cases step.backing segment with
  | none => rw [List.filterMap_nil, List.append_nil, backed]
  | some node =>
      rw [List.filterMap_nil, eraseDups_concat]
      simp only [SnapshotBuilder.append, backed, List.contains_iff_mem, List.mem_eraseDups]

/-- One step more changes the owners in the history as it changes those in the builder. -/
theorem owners_concat (steps : List BuildStep) (step : BuildStep) (segment : SegmentId) :
    owners (steps ++ [step]) segment = step.reassign segment (owners steps segment) := by
  rw [owners, promoted_concat, backed_concat]
  cases step with
  | member node => rfl
  | primary node segments =>
      by_cases hnamed : segment ∈ segments
      · simp only [promoting, backing, reassign, if_pos hnamed]
        exact (SnapshotBuilder.promote_parts node _ _).symm
      · simp only [promoting, backing, reassign, if_neg hnamed]
        rfl
  | backup node segments =>
      by_cases hnamed : segment ∈ segments
      · simp only [promoting, backing, reassign, if_pos hnamed]
        exact (SnapshotBuilder.append_parts node _ _).symm
      · simp only [promoting, backing, reassign, if_neg hnamed]
        rfl

end BuildStep

namespace SnapshotBuilder

open BuildStep

/-- The builder after some steps holds what their history tells. -/
theorem foldl_step_start (topology : TopologyId) (segmentCount : Nat) (steps : List BuildStep) :
    steps.foldl step (start topology segmentCount) =
      { topology := topology
        members := (steps.map BuildStep.node).reverse
        owners := (List.range (max segmentCount 1)).map (BuildStep.owners steps)
        outOfRange := firstBeyond (max segmentCount 1) steps } := by
  induction steps using List.reverseRecOn with
  | nil =>
      have howners : BuildStep.owners [] = fun _ => [] := rfl
      simp [start, howners, firstBeyond]
  | append_singleton steps step ih =>
      rw [List.foldl_append, ih, List.foldl_cons, List.foldl_nil, step_eq]
      simp only [SnapshotBuilder.mk.injEq, true_and]
      refine ⟨by simp, List.ext_getElem? fun segment => ?_, ?_⟩
      · rw [List.getElem?_mapIdx, List.getElem?_map, List.getElem?_map]
        by_cases hinside : segment < max segmentCount 1
        · rw [List.getElem?_range hinside, Option.map_some, Option.map_some, Option.map_some,
            owners_concat]
        · rw [List.getElem?_eq_none (List.length_range ▸ Nat.not_lt.mp hinside)]
          rfl
      · simp only [firstBeyond, List.flatMap_append, List.flatMap_singleton, List.find?_append,
          List.length_map, List.length_range]

end SnapshotBuilder

namespace Snapshot

open BuildStep

/-- A history of steps is refused for the first segment that lies outside the key space, if there is
one, and otherwise builds a snapshot.  Its members are the nodes that were named, in ascending order.
The owners of each segment are the nodes that were made its primary owner, the latest first, and then
the nodes that were only made backups, the earliest first. -/
theorem build_follows_steps (topology : TopologyId) (segmentCount : Nat) (steps : List BuildStep) :
    match firstBeyond (max segmentCount 1) steps with
    | some segment =>
        build topology segmentCount steps =
          .error (.invalidSegment segment (max segmentCount 1))
    | none =>
        ∃ snapshot, build topology segmentCount steps = .ok snapshot ∧
          snapshot.topology = topology ∧
          snapshot.members.Pairwise (· < ·) ∧
          (∀ node, node ∈ snapshot.members ↔ ∃ step ∈ steps, step.node = node) ∧
          snapshot.owners = (List.range (max segmentCount 1)).map fun segment =>
            promoted steps segment ++
              (backed steps segment).filter (· ∉ promoted steps segment) := by
  rw [build, SnapshotBuilder.foldl_step_start, SnapshotBuilder.finish]
  cases firstBeyond (max segmentCount 1) steps with
  | some segment => simp
  | none =>
      refine ⟨_, ofParts?_eq_ok.mpr ⟨⟨?_, ?_, ?_⟩, rfl⟩, rfl, ?_, ?_, rfl⟩
      · exact List.ne_nil_of_length_pos (by simp)
      · intro list hlist owner howner
        obtain ⟨segment, -, rfl⟩ := List.mem_map.mp hlist
        simpa using exists_node_of_mem_owners howner
      · intro list hlist
        obtain ⟨segment, -, rfl⟩ := List.mem_map.mp hlist
        exact nodup_owners steps segment
      · exact Ascending.pairwise_ofList UInt64.lt_trans _
      · intro node
        exact mem_ofList_nodes.trans (by simp)

/-- A new primary owner pushes the old one back, and a backup that is promoted leaves its place. -/
example :
    build 1 2 [.primary 1 [0, 1], .backup 2 [0], .backup 3 [0, 0], .primary 3 [0], .member 4] =
      .ok ⟨1, [1, 2, 3, 4], [[3, 1, 2], [1]]⟩ := by decide

end Snapshot

end Custody
