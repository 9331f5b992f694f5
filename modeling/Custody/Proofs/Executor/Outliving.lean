/-
# Passes that outlive their outcome

The work of a pass may go on after the pass was superseded.  The level of abandoned passes is meant to
be the number of such passes, and as long as the worker is not dismissed it is.  A worker that is
dismissed may have a pass whose work goes on as well; that pass is superseded and missing from the
level.  It is the only one that ever is, because a worker is dismissed once.
-/

import Custody.Proofs.Executor.Tally

namespace Custody

/-- The end of a pass that the worker had does not move the level. -/
theorem PassMetrics.abandoned_recordResult (metrics : PassMetrics)
    (result : Except Error Report) :
    (metrics.recordResult result).abandoned = metrics.abandoned := by
  cases result with
  | error failure => rfl
  | ok report =>
      simp only [recordResult]
      split
      · rfl
      · rfl

namespace Account

variable {account after : Account}

/-- The level is that of the abandoned passes, and stranded passes are those of the worker that was
dismissed. -/
structure Levelled (account : Account) : Prop where
  level : account.metrics.abandoned = Int64.ofNat account.abandoned.length
  kept : ∀ id ∈ account.abandoned, id ∉ account.dismissed
  lost : ∀ id ∈ account.stranded, id ∈ account.dismissed
  single : account.stranded.length ≤ 1

theorem levelled_empty : Levelled {} where
  level := rfl
  kept _ hmem := nomatch hmem
  lost _ hmem := nomatch hmem
  single := Nat.zero_le 1

/-- Every turn keeps the level right, given where the passes are. -/
theorem Levelled.turn (hlevelled : account.Levelled) (hkept : account.Kept)
    (hturn : Turn account after) : after.Levelled := by
  cases hturn with
  | accept => exact { hlevelled with }
  | skip => exact { hlevelled with }
  | take => exact { hlevelled with }
  | @abandon id hheld =>
      have hwaits : id ∈ account.waiting := by simp [waiting, hheld]
      refine { hlevelled with level := ?_, kept := ?_ }
      · rw [List.length_append, List.length_singleton, Int64.ofNat_add, ← hlevelled.level]
        rfl
      · intro other hmem
        rcases List.mem_append.mp hmem with hbefore | hnow
        · exact hlevelled.kept other hbefore
        · rw [List.mem_singleton.mp hnow]
          intro hgone
          exact hkept.not_resolved hwaits (List.mem_map_of_mem (hkept.dismissed id hgone))
  | @finish id _ result =>
      refine { hlevelled with level := ?_ }
      exact (PassMetrics.abandoned_recordResult ..).trans hlevelled.level
  | @returnLate id hmem =>
      have hdistinct := (List.nodup_append.mp hkept.leftover_nodup).1
      have hless := (Kept.perm_filter_ne hdistinct hmem).length_eq
      refine { hlevelled with level := ?_, kept := ?_ }
      · show account.metrics.abandoned + (-1) = _
        rw [hlevelled.level, hless, List.length_cons, Int64.ofNat_add]
        simp [Int64.add_assoc]
      · intro other hother
        exact hlevelled.kept other (List.mem_of_mem_filter hother)
  | @returnUnheard id hmem =>
      refine { hlevelled with lost := ?_, single := ?_ }
      · intro other hother
        exact hlevelled.lost other (List.mem_of_mem_filter hother)
      · exact (List.length_filter_le ..).trans hlevelled.single
  | dismiss hfirst =>
      refine { hlevelled with kept := ?_, lost := ?_, single := ?_ }
      · intro id hmem hgone
        rcases List.mem_append.mp hgone with hbefore | hnow
        · exact hlevelled.kept id hmem hbefore
        · apply hkept.not_resolved hnow
          exact List.mem_map_of_mem (hkept.leftover id (List.mem_append_left _ hmem))
      · intro id hmem
        exact List.mem_append_right _ (List.mem_append_left _ hmem)
      · cases account.held <;> simp

theorem levelled_of_turns (hturns : Turns {} account) : account.Levelled := by
  induction hturns with
  | refl => exact levelled_empty
  | tail hbefore hturn ih => exact ih.turn (kept_empty.turns hbefore) hturn

end Account

namespace Service

variable {Work : Type} {service : Service Work}

/-- The passes that were superseded although their work has begun and not returned. -/
def outliving (service : Service Work) : List PassId :=
  service.executor.started.filter fun id =>
    service.executor.outcomeOf id = some .superseded ∧ id ∉ service.returned

/-- They are the passes that are left over. -/
theorem Sound.outliving_perm (hsound : service.Sound) :
    service.outliving.Perm service.account.leftover := by
  have hkept := hsound.kept
  have hbegun : service.executor.started.Perm
      (service.returned ++ (service.account.held.toList ++ service.account.leftover)) := hkept.begun
  have hdistinct := hbegun.nodup_iff.mp hkept.once
  refine (hbegun.filter _).trans (List.Perm.of_eq ?_)
  have hreturned : service.returned.filter
      (fun id => service.executor.outcomeOf id = some .superseded ∧ id ∉ service.returned) = [] := by
    refine List.filter_eq_nil_iff.mpr fun id hmem hout => ?_
    exact (of_decide_eq_true hout).2 hmem
  have hheld : service.account.held.toList.filter
      (fun id => service.executor.outcomeOf id = some .superseded ∧ id ∉ service.returned) = [] := by
    refine List.filter_eq_nil_iff.mpr fun id hmem hout => ?_
    have hnone := Executor.outcomeOf_eq_none_iff.mpr
      (hkept.not_resolved (List.mem_append_left _ hmem))
    cases hnone.symm.trans (of_decide_eq_true hout).1
  have hleft : service.account.leftover.filter
      (fun id => service.executor.outcomeOf id = some .superseded ∧ id ∉ service.returned) =
        service.account.leftover := by
    refine List.filter_eq_self.mpr fun id hmem => decide_eq_true ⟨?_, fun hback => ?_⟩
    · exact hsound.disciplined.outcomeOf_of_mem (hkept.leftover id hmem)
    · exact List.disjoint_of_nodup_append hdistinct hback (List.mem_append_right _ hmem)
  rw [List.filter_append, List.filter_append, hreturned, hheld, hleft]
  rfl

/-- What the level of abandoned passes tells about the passes that outlive their outcome. -/
structure Levelled (service : Service Work) : Prop where
  /-- The level is the number of those that were not given up with the worker. -/
  level : service.executor.metrics.abandoned =
    Int64.ofNat (service.outliving.filter (· ∉ service.dismissed)).length
  /-- At most one pass is missing. -/
  missed : (service.outliving.filter (· ∈ service.dismissed)).length ≤ 1
  /-- None is missing, unless whoever shut the executor down was told that the worker was given
  up. -/
  exact : false ∉ service.answers →
    service.executor.metrics.abandoned = Int64.ofNat service.outliving.length
  /-- The level is zero when all work that has begun has returned. -/
  returns : (∀ id ∈ service.executor.started, id ∈ service.returned) →
    service.executor.metrics.abandoned = 0
  /-- The level is not negative, for as many passes as a level can count. -/
  nonneg : (service.executor.started.length : Int) ≤ Int64.maxValue.toInt →
    0 ≤ service.executor.metrics.abandoned

/-- The level of abandoned passes, whatever an executor goes through. -/
theorem levelled_served (name : String) (steps : List (ServiceStep Work)) :
    ((new name).served steps : Service Work).Levelled := by
  have hupright := (upright_new name : (new name : Service Work).Upright).served steps
  generalize (new name : Service Work).served steps = service at hupright
  have hlevelled := Account.levelled_of_turns hupright.turns
  have hperm := hupright.outliving_perm
  have hlevel : service.executor.metrics.abandoned =
      Int64.ofNat (service.outliving.filter (· ∉ service.dismissed)).length := by
    have habandoned : service.account.abandoned.filter (· ∉ service.dismissed) =
        service.account.abandoned :=
      List.filter_eq_self.mpr fun id hmem => decide_eq_true (hlevelled.kept id hmem)
    have hstranded : service.account.stranded.filter (· ∉ service.dismissed) = [] := by
      refine List.filter_eq_nil_iff.mpr fun id hmem hnot => ?_
      exact of_decide_eq_true hnot (hlevelled.lost id hmem)
    rw [(hperm.filter _).length_eq, Account.leftover, List.filter_append, habandoned, hstranded,
      List.append_nil]
    exact hlevelled.level
  constructor
  case level => exact hlevel
  case missed =>
    have habandoned : service.account.abandoned.filter (· ∈ service.dismissed) = [] := by
      refine List.filter_eq_nil_iff.mpr fun id hmem hgone => ?_
      exact hlevelled.kept id hmem (of_decide_eq_true hgone)
    rw [(hperm.filter _).length_eq, Account.leftover, List.filter_append, habandoned,
      List.nil_append]
    exact (List.length_filter_le ..).trans hlevelled.single
  case exact =>
    intro hnever
    have hnobody : service.dismissed = [] := not_not.mp fun hsome => hnever (hupright.told hsome)
    simpa [hnobody] using hlevel
  case returns =>
    intro hall
    have hnone : service.outliving = [] := by
      refine List.filter_eq_nil_iff.mpr fun id hmem hout => ?_
      exact (of_decide_eq_true hout).2 (hall id hmem)
    rw [hlevel, hnone]
    rfl
  case nonneg =>
    intro hbound
    have hfewer : (service.outliving.filter (· ∉ service.dismissed)).length ≤
        service.executor.started.length :=
      (List.length_filter_le ..).trans (List.length_filter_le ..)
    have hmost : Int64.maxValue.toInt = 2 ^ 63 - 1 := rfl
    have hless : (service.outliving.filter (· ∉ service.dismissed)).length < 2 ^ 63 := by omega
    rw [Int64.le_iff_toInt_le, hlevel, Int64.toInt_ofNat_of_lt hless]
    exact Int.natCast_nonneg _

/-- Work that nothing can stop. -/
def unstoppable : ScriptedWork := ⟨some .untilReleased, false, .ok {}⟩

/-- The worker takes a pass whose work nothing can stop, and is dismissed when the executor is shut
down. -/
def dismissal : List (ServiceStep ScriptedWork) :=
  [.submit unstoppable, .move .takeNext, .shutdown [.noticeCancellation] false]

/-- The level misses the pass of a dismissed worker: the pass is superseded and its work goes on, but
the level is zero. -/
theorem level_ne_outliving_of_dismissal :
    ((new "executor").served dismissal).executor =
        (Executor.new "executor").run [[.submit unstoppable], [.shutdown]] ∧
      ((new "executor").served dismissal).outliving = [0] ∧
      ((new "executor").served dismissal).executor.metrics.abandoned ≠
        Int64.ofNat ((new "executor").served dismissal).outliving.length := by
  refine ⟨rfl, ?_, ?_⟩
  · decide
  · decide

end Service

end Custody
