/-
# The account of an executor

An account says what an executor counts and where its passes are, and nothing else: not how far their
work has come, nor which of them were told to stop.  Beside these it keeps what was seen from outside:
the passes that were admitted, those whose work has returned, and those that were given up when the
worker was dismissed.

Whatever happens to an executor changes its account in one of eight turns.  Every turn keeps each
admitted pass in one place of the line, and each pass whose work has begun in one of four: returned,
with the worker, abandoned or stranded.
-/

import Mathlib.Logic.Relation
import Custody.Proofs.Executor.Discipline

namespace Custody

/-- What an executor counts, where its passes are, and what was seen of them. -/
structure Account where
  metrics : PassMetrics := {}
  resolved : List (PassId × Outcome) := []
  started : List PassId := []
  /-- The pass that the worker has not let go of. -/
  held : Option PassId := none
  queue : List PassId := []
  abandoned : List PassId := []
  stranded : List PassId := []
  /-- The passes that were accepted. -/
  admitted : List PassId := []
  /-- The passes whose work has returned. -/
  returned : List PassId := []
  /-- The passes that were not resolved when the worker was dismissed. -/
  dismissed : List PassId := []

namespace Account

/-- The passes that are not resolved, the oldest first. -/
def waiting (account : Account) : List PassId := account.held.toList ++ account.queue

/-- The passes whose work goes on although they are resolved. -/
def leftover (account : Account) : List PassId := account.abandoned ++ account.stranded

/-- One turn of an account. -/
inductive Turn : Account → Account → Prop
  /-- A pass is accepted, under a number of its own. -/
  | accept {account : Account} {id : PassId} (hfresh : id ∉ account.admitted) :
      Turn account
        { account with
          queue := account.queue ++ [id]
          admitted := account.admitted ++ [id]
          metrics := account.metrics.recordSubmitted }
  /-- The worker finds that the next pass was told to stop. -/
  | skip {account : Account} {id : PassId} {rest : List PassId} (hidle : account.held = none)
      (hqueue : account.queue = id :: rest) :
      Turn account
        { account with
          queue := rest
          resolved := account.resolved ++ [(id, .superseded)]
          metrics := account.metrics.recordSuperseded }
  /-- The worker takes the next pass, and its work begins. -/
  | take {account : Account} {id : PassId} {rest : List PassId} (hidle : account.held = none)
      (hqueue : account.queue = id :: rest) :
      Turn account
        { account with
          queue := rest
          held := some id
          started := account.started ++ [id] }
  /-- The worker lets go of a pass whose work has not returned. -/
  | abandon {account : Account} {id : PassId} (hheld : account.held = some id) :
      Turn account
        { account with
          held := none
          abandoned := account.abandoned ++ [id]
          resolved := account.resolved ++ [(id, .superseded)]
          metrics := (account.metrics.moveAbandoned 1).recordSuperseded }
  /-- The work of the pass that the worker has returns. -/
  | finish {account : Account} {id : PassId} (hheld : account.held = some id)
      (result : Except Error Report) :
      Turn account
        { account with
          held := none
          returned := account.returned ++ [id]
          resolved := account.resolved ++ [(id, .ofResult result)]
          metrics := account.metrics.recordResult result }
  /-- The work of an abandoned pass returns. -/
  | returnLate {account : Account} {id : PassId} (hmem : id ∈ account.abandoned) :
      Turn account
        { account with
          abandoned := account.abandoned.filter (· ≠ id)
          returned := account.returned ++ [id]
          metrics := account.metrics.moveAbandoned (-1) }
  /-- The work that a dismissed worker had returns. -/
  | returnUnheard {account : Account} {id : PassId} (hmem : id ∈ account.stranded) :
      Turn account
        { account with
          stranded := account.stranded.filter (· ≠ id)
          returned := account.returned ++ [id] }
  /-- The worker is dismissed.  Nothing is counted. -/
  | dismiss {account : Account} (hfirst : account.stranded = []) :
      Turn account
        { account with
          held := none
          queue := []
          stranded := account.held.toList
          dismissed := account.dismissed ++ account.waiting
          resolved := account.resolved ++ account.waiting.map fun id => (id, .superseded) }

/-- Any number of turns. -/
abbrev Turns : Account → Account → Prop := Relation.ReflTransGen Turn

/-- An account that knows of every pass where it is. -/
structure Kept (account : Account) : Prop where
  /-- Passes are admitted in the order in which they are resolved. -/
  inLine : account.resolved.map (·.1) ++ account.waiting = account.admitted
  /-- No number is given twice. -/
  distinct : account.admitted.Nodup
  /-- Every pass whose work has begun has returned, or it is with the worker or left over. -/
  begun : account.started.Perm (account.returned ++ (account.held.toList ++ account.leftover))
  /-- No work begins twice. -/
  once : account.started.Nodup
  /-- Work that has returned belongs to a pass that is resolved. -/
  returned : ∀ id ∈ account.returned, id ∈ account.resolved.map (·.1)
  leftover : ∀ id ∈ account.leftover, (id, Outcome.superseded) ∈ account.resolved
  dismissed : ∀ id ∈ account.dismissed, (id, Outcome.superseded) ∈ account.resolved

variable {account after : Account}

theorem kept_empty : Kept {} where
  inLine := rfl
  distinct := List.nodup_nil
  begun := List.Perm.refl _
  once := List.nodup_nil
  returned _ hmem := nomatch hmem
  leftover _ hmem := nomatch hmem
  dismissed _ hmem := nomatch hmem

namespace Kept

/-- No pass is resolved twice. -/
theorem resolved_nodup (hkept : account.Kept) : (account.resolved.map (·.1)).Nodup := by
  have hdistinct := hkept.distinct
  rw [← hkept.inLine] at hdistinct
  exact (List.nodup_append.mp hdistinct).1

/-- A pass that waits is not resolved. -/
theorem not_resolved (hkept : account.Kept) {id : PassId} (hwaits : id ∈ account.waiting) :
    id ∉ account.resolved.map (·.1) := by
  have hdistinct := hkept.distinct
  rw [← hkept.inLine] at hdistinct
  exact fun hresolved => List.disjoint_of_nodup_append hdistinct hresolved hwaits

/-- A pass in the queue has not begun. -/
theorem not_started (hkept : account.Kept) {id : PassId} (hidle : account.held = none)
    (hqueued : id ∈ account.queue) : id ∉ account.started := by
  have hwaits : id ∈ account.waiting := List.mem_append_right _ hqueued
  intro hstarted
  apply hkept.not_resolved hwaits
  have hplace := hkept.begun.subset hstarted
  rw [hidle] at hplace
  rcases List.mem_append.mp hplace with hreturned | hleft
  · exact hkept.returned id hreturned
  · exact List.mem_map_of_mem (hkept.leftover id hleft)

/-- Whoever leaves a list of different numbers takes one place there. -/
theorem perm_filter_ne {id : PassId} {ids : List PassId} (hdistinct : ids.Nodup)
    (hmem : id ∈ ids) : ids.Perm (id :: ids.filter (· ≠ id)) := by
  have herase : ids.erase id = ids.filter (· ≠ id) := by
    rw [hdistinct.erase_eq_filter]
    exact List.filter_congr fun other _ => by simp [bne_eq, beq_eq_decide]
  rw [← herase]
  exact List.perm_cons_erase hmem

/-- The passes whose work has not returned differ. -/
theorem begun_nodup (hkept : account.Kept) :
    (account.held.toList ++ account.leftover).Nodup :=
  (List.nodup_append.mp (hkept.begun.nodup_iff.mp hkept.once)).2.1

theorem leftover_nodup (hkept : account.Kept) : account.leftover.Nodup :=
  (List.nodup_append.mp hkept.begun_nodup).2.1

/-- The front of the line is resolved, and it is known where the passes are whose work has begun. -/
theorem of_resolving (hkept : account.Kept) (more : List (PassId × Outcome))
    (hline : account.waiting = more.map (·.1) ++ after.waiting)
    (hresolved : after.resolved = account.resolved ++ more)
    (hadmitted : after.admitted = account.admitted)
    (hbegun : after.started.Perm (after.returned ++ (after.held.toList ++ after.leftover)))
    (honce : after.started.Nodup)
    (hreturned : ∀ id ∈ after.returned,
      id ∈ account.returned ∨ id ∈ account.leftover ∨ id ∈ more.map (·.1))
    (hleftover : ∀ id ∈ after.leftover, id ∈ account.leftover ∨ (id, Outcome.superseded) ∈ more)
    (hdismissed : ∀ id ∈ after.dismissed,
      id ∈ account.dismissed ∨ (id, Outcome.superseded) ∈ more) : after.Kept where
  inLine := by
    rw [hresolved, hadmitted, ← hkept.inLine, hline, List.map_append, List.append_assoc]
  distinct := hadmitted ▸ hkept.distinct
  begun := hbegun
  once := honce
  returned id hmem := by
    rw [hresolved, List.map_append, List.mem_append]
    rcases hreturned id hmem with hbefore | hleft | hnow
    · exact Or.inl (hkept.returned id hbefore)
    · exact Or.inl (List.mem_map_of_mem (hkept.leftover id hleft))
    · exact Or.inr hnow
  leftover id hmem := by
    rw [hresolved, List.mem_append]
    exact (hleftover id hmem).imp_left (hkept.leftover id)
  dismissed id hmem := by
    rw [hresolved, List.mem_append]
    exact (hdismissed id hmem).imp_left (hkept.dismissed id)

/-- The work of a pass returns that was left over. -/
theorem of_returning (hkept : account.Kept) {id : PassId}
    (hleft : account.leftover.Perm (id :: after.leftover))
    (hreturned : after.returned = account.returned ++ [id])
    (hheld : after.held = account.held) (hqueue : after.queue = account.queue)
    (hresolved : after.resolved = account.resolved) (hstarted : after.started = account.started)
    (hadmitted : after.admitted = account.admitted)
    (hdismissed : after.dismissed = account.dismissed) : after.Kept := by
  have hline : account.waiting = after.waiting := by
    rw [waiting, waiting, hheld, hqueue]
  refine hkept.of_resolving [] hline (by simp [hresolved]) hadmitted ?_
    (hstarted ▸ hkept.once) ?_ ?_ fun _ hmem => Or.inl (hdismissed ▸ hmem)
  · rw [hstarted, hreturned, hheld, List.append_assoc]
    apply hkept.begun.trans
    apply List.Perm.append_left
    exact (hleft.append_left _).trans List.perm_middle
  · intro other hmem
    rw [hreturned, List.mem_append, List.mem_singleton] at hmem
    rcases hmem with hbefore | rfl
    · exact Or.inl hbefore
    · exact Or.inr (Or.inl (hleft.mem_iff.mpr List.mem_cons_self))
  · intro other hmem
    exact Or.inl (hleft.mem_iff.mpr (List.mem_cons_of_mem id hmem))

/-- Every turn keeps each pass in its place. -/
theorem turn (hkept : account.Kept) (hturn : Turn account after) : after.Kept := by
  have hbegun := hkept.begun
  cases hturn with
  | accept hfresh =>
      refine { hkept with inLine := ?_, distinct := ?_ }
      · simp [waiting, ← hkept.inLine]
      · exact hkept.distinct.append (List.nodup_singleton _) (List.disjoint_singleton.mpr hfresh)
  | @skip id rest hidle hqueue =>
      refine hkept.of_resolving [(id, .superseded)] ?_ rfl rfl hbegun hkept.once
        (fun _ hmem => Or.inl hmem) (fun _ hmem => Or.inl hmem) fun _ hmem => Or.inl hmem
      simp [waiting, hidle, hqueue]
  | @take id rest hidle hqueue =>
      have hnew := hkept.not_started hidle (hqueue ▸ List.mem_cons_self)
      refine hkept.of_resolving [] ?_ (List.append_nil _).symm rfl ?_ ?_
        (fun _ hmem => Or.inl hmem) (fun _ hmem => Or.inl hmem) fun _ hmem => Or.inl hmem
      · simp [waiting, hidle, hqueue]
      · rw [hidle] at hbegun
        apply (hbegun.append_right [id]).trans
        rw [List.append_assoc]
        exact List.perm_append_comm.append_left _
      · exact hkept.once.append (List.nodup_singleton _) (List.disjoint_singleton.mpr hnew)
  | @abandon id hheld =>
      have hmoved : (id :: account.leftover).Perm
          (account.abandoned ++ [id] ++ account.stranded) := by
        rw [List.append_assoc]
        exact List.perm_middle.symm
      refine hkept.of_resolving [(id, .superseded)] ?_ rfl rfl ?_ hkept.once
        (fun _ hmem => Or.inl hmem) ?_ fun _ hmem => Or.inl hmem
      · simp [waiting, hheld]
      · rw [hheld] at hbegun
        exact hbegun.trans (hmoved.append_left _)
      · intro other hmem
        rcases List.mem_cons.mp (hmoved.mem_iff.mpr hmem) with rfl | hbefore
        · exact Or.inr List.mem_cons_self
        · exact Or.inl hbefore
  | @finish id hheld result =>
      refine hkept.of_resolving [(id, .ofResult result)] ?_ rfl rfl ?_ hkept.once ?_
        (fun _ hmem => Or.inl hmem) fun _ hmem => Or.inl hmem
      · simp [waiting, hheld]
      · rw [hheld] at hbegun
        rw [List.append_assoc]
        exact hbegun
      · intro other hmem
        rcases List.mem_append.mp hmem with hbefore | hnow
        · exact Or.inl hbefore
        · exact Or.inr (Or.inr hnow)
  | @returnLate id hmem =>
      have hdistinct := (List.nodup_append.mp hkept.leftover_nodup).1
      have hleft : account.leftover.Perm
          (id :: (account.abandoned.filter (· ≠ id) ++ account.stranded)) :=
        (perm_filter_ne hdistinct hmem).append_right account.stranded
      exact hkept.of_returning hleft rfl rfl rfl rfl rfl rfl rfl
  | @returnUnheard id hmem =>
      have hdistinct := (List.nodup_append.mp hkept.leftover_nodup).2.1
      have hleft : account.leftover.Perm
          (id :: (account.abandoned ++ account.stranded.filter (· ≠ id))) :=
        ((perm_filter_ne hdistinct hmem).append_left account.abandoned).trans List.perm_middle
      exact hkept.of_returning hleft rfl rfl rfl rfl rfl rfl rfl
  | dismiss hfirst =>
      have hwaits : ∀ id ∈ account.waiting,
          (id, Outcome.superseded) ∈ account.waiting.map fun id => (id, Outcome.superseded) :=
        fun id hmem => List.mem_map.mpr ⟨id, hmem, rfl⟩
      refine hkept.of_resolving (account.waiting.map fun id => (id, .superseded)) ?_ rfl rfl ?_
        hkept.once (fun _ hmem => Or.inl hmem) ?_ ?_
      · simp [waiting, Function.comp_def]
      · rw [Account.leftover, hfirst, List.append_nil] at hbegun
        exact hbegun.trans (List.perm_append_comm.append_left _)
      · intro id hmem
        rcases List.mem_append.mp hmem with habandoned | hheld
        · exact Or.inl (List.mem_append_left _ habandoned)
        · exact Or.inr (hwaits id (List.mem_append_left _ hheld))
      · intro id hmem
        exact (List.mem_append.mp hmem).imp_right (hwaits id)

theorem turns (hkept : account.Kept) (hturns : Turns account after) : after.Kept := by
  induction hturns with
  | refl => exact hkept
  | tail _ hturn ih => exact ih.turn hturn

end Kept

end Account

end Custody
