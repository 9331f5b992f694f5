/-
# What a registered node keeps in order

Whatever a registered node goes through, its listener stays the only one, the passes of its executor
stand in line, its scheduler stays open and accounted for, and its store has every entry once.  Each of these is kept by
every single step, so it holds after every run.
-/

import Custody.Proofs.Executor.Discipline
import Custody.Proofs.Node.Ownership
import Custody.Proofs.Scheduler.Accounts
import Custody.Proofs.Scheduler.Placement

namespace Custody

variable {K : Type}

namespace Store

@[simp] theorem entries_answer (store : Store K) (locality : SegmentLocality K) :
    (store.answer locality).2.entries = store.entries := by
  unfold answer
  split <;> rfl

variable [DecidableEq K]

/-- An entry that is stored anew takes the place of what was stored for it. -/
theorem nodup_insert {store : Store K} (hdistinct : (store.entries.map (·.id)).Nodup) (id : K)
    (deadline : Instant) : ((store.insert id deadline).entries.map (·.id)).Nodup := by
  rw [insert, List.map_append]
  apply List.Nodup.append
  · exact hdistinct.sublist (List.filter_sublist.map _)
  · exact List.nodup_singleton _
  · intro other hkept hnew
    obtain ⟨entry, hmem, rfl⟩ := List.mem_map.mp hkept
    exact of_decide_eq_true (List.mem_filter.mp hmem).2 (List.mem_singleton.mp hnew)

theorem nodup_remove {store : Store K} (hdistinct : (store.entries.map (·.id)).Nodup) (id : K) :
    ((store.remove id).2.entries.map (·.id)).Nodup :=
  hdistinct.sublist (List.filter_sublist.map _)

end Store

namespace Node

/-- The listener of a node is the only one, its passes stand in line, its scheduler is open and
accounted for, and its store has every entry once. -/
structure Regular (node : Node K) : Prop where
  lone : ∃ listener, node.notifier.listeners = [listener]
  unobserved : node.observers = []
  disciplined : node.listener.executor.Disciplined
  isOpen : node.scheduler.closed = false
  accounted : node.scheduler.Accounted
  distinct : (node.store.entries.map (·.id)).Nodup

theorem InstallStep.regular [DecidableEq K] {before after : Node K} {action : NodeAction K}
    (hstep : before.InstallStep action after) (hregular : before.Regular) : after.Regular := by
  obtain ⟨hlone, hunobserved, hdisciplined, hopen, haccounted, hdistinct⟩ := hregular
  cases hstep with
  | narrowed installation kept hinstalling hcancelling =>
      exact ⟨hlone, hunobserved, hdisciplined, (Scheduler.closed_install _ _ _).trans hopen,
        (Scheduler.Changes.install _ _ _).accounted haccounted, hdistinct⟩
  | swept installation kept hinstalling hcancelling =>
      exact ⟨hlone, hunobserved, hdisciplined, (Scheduler.closed_cancelUnowned _ _ _).trans hopen,
        (Scheduler.Changes.cancelUnowned _ _ _).accounted haccounted, hdistinct⟩
  | lossBegun installation id unheard kept lost hhears =>
      exact ⟨hlone, hunobserved, hdisciplined.cancelCurrent, hopen, haccounted, hdistinct⟩
  | takenUp installation id unheard old new gained handle hhears =>
      exact ⟨hlone, hunobserved, hdisciplined.submit _,
        (Scheduler.closed_install _ _ _).trans hopen,
        (Scheduler.Changes.install _ _ _).accounted haccounted, hdistinct⟩
  | _ => exact ⟨hlone, hunobserved, hdisciplined, hopen, haccounted, hdistinct⟩

variable [DecidableEq K] {node : Node K}

theorem Regular.stepWork (hregular : node.Regular) (pass : Pass (SchedulingPass K)) :
    (node.stepWork pass).Regular := by
  obtain ⟨hlone, hunobserved, hdisciplined, hopen, haccounted, hdistinct⟩ := hregular
  cases hwork : pass.work with
  | waiting old new =>
      simp only [Node.stepWork, hwork]
      split
      · exact ⟨hlone, hunobserved, hdisciplined.setWork _ _, hopen, haccounted, hdistinct⟩
      · exact ⟨hlone, hunobserved, hdisciplined.setWork _ _, hopen, haccounted, hdistinct⟩
  | asking gained =>
      simp only [Node.stepWork, hwork]
      split
      · exact ⟨hlone, hunobserved, hdisciplined, hopen, haccounted, hdistinct⟩
      · refine ⟨hlone, hunobserved, hdisciplined.setWork _ _, hopen, haccounted, ?_⟩
        rw [Store.entries_answer]
        exact hdistinct
  | reading gained rest report =>
      simp only [Node.stepWork, hwork]
      exact ⟨hlone, hunobserved, hdisciplined.setWork _ _, hopen, haccounted, hdistinct⟩
  | holding gained candidate rest report =>
      simp only [Node.stepWork, hwork]
      have hplaced := node.scheduler.extends_place gained candidate report
      exact ⟨hlone, hunobserved, hdisciplined.setWork _ _, hplaced.closed.trans hopen,
        (Scheduler.Changes.place _ gained candidate report).accounted haccounted, hdistinct⟩
  | returned result =>
      simp only [Node.stepWork, hwork]
      exact ⟨hlone, hunobserved, hdisciplined.workReturned _ _, hopen, haccounted, hdistinct⟩

theorem Regular.act (hregular : node.Regular) (hregistered : node.registration.isSome = true)
    (action : NodeAction K) : (node.act action).Regular := by
  obtain ⟨hlone, hunobserved, hdisciplined, hopen, haccounted, hdistinct⟩ := hregular
  have hsame : node.Regular := ⟨hlone, hunobserved, hdisciplined, hopen, haccounted, hdistinct⟩
  cases action with
  | store id deadline =>
      exact ⟨hlone, hunobserved, hdisciplined, hopen, haccounted, Store.nodup_insert hdistinct id deadline⟩
  | unstore id =>
      exact ⟨hlone, hunobserved, hdisciplined, hopen, haccounted, Store.nodup_remove hdistinct id⟩
  | schedule id deadline =>
      exact ⟨hlone, hunobserved, hdisciplined, (Scheduler.closed_schedule _ _ _).trans hopen,
        (Scheduler.Changes.schedule _ id deadline).accounted haccounted, hdistinct⟩
  | cancel id =>
      refine ⟨hlone, hunobserved, hdisciplined, ?_,
        (Scheduler.Changes.perform _ (.cancel id)).accounted haccounted, hdistinct⟩
      show (node.scheduler.cancel id).2.closed = false
      rcases node.scheduler.cancel_cases id with ⟨-, h⟩ | ⟨-, h⟩
      · rw [h]
        exact hopen
      · rw [h]
        exact hopen
  | advance elapsed =>
      have hlater := (Scheduler.Changes.perform node.scheduler (.advance elapsed)).accounted haccounted
      exact ⟨hlone, hunobserved, hdisciplined, (Scheduler.closed_fireDue _).trans hopen,
        hlater.fireDue, hdistinct⟩
  | beginInstall next =>
      rcases act_beginInstall node next with h | hstep
      · exact h.symm ▸ hsame
      · exact hstep.regular hsame
  | narrowGate =>
      rcases act_narrowGate node with h | hstep
      · exact h.symm ▸ hsame
      · exact hstep.regular hsame
  | advanceInstall =>
      rcases act_advanceInstall node with h | hstep
      · exact h.symm ▸ hsame
      · exact hstep.regular hsame
  | register => exact (act_register hregistered).symm ▸ hsame
  | takeNext => exact ⟨hlone, hunobserved, hdisciplined.takeNext, hopen, haccounted, hdistinct⟩
  | noticeCancellation =>
      exact ⟨hlone, hunobserved, hdisciplined.noticeCancellation, hopen, haccounted, hdistinct⟩
  | passStep id =>
      simp only [Node.act]
      split
      · exact hsame.stepWork _
      · exact hsame
  | setPaused paused => exact ⟨hlone, hunobserved, hdisciplined, hopen, haccounted, hdistinct⟩
  | failNext detail => exact ⟨hlone, hunobserved, hdisciplined, hopen, haccounted, hdistinct⟩

theorem Regular.run (hregular : node.Regular) (haligned : node.Aligned)
    (actions : List (NodeAction K)) : (node.run actions).Regular := by
  induction actions generalizing node with
  | nil => exact hregular
  | cons action later ih =>
      exact ih (hregular.act haligned.registered action) (haligned.act action)

theorem regular_register {localNode : NodeId} {initial : Snapshot} {partitioner : Partitioner K}
    {config : Config} {now : Instant} {fresh : Node K}
    (hnew : Node.new localNode initial partitioner config now = .ok fresh) :
    fresh.register.Regular := by
  obtain rfl := new_eq_ok hnew
  exact ⟨⟨1, rfl⟩, rfl, Executor.disciplined_new _, rfl,
    (Scheduler.Changes.cancelUnowned _ _ _).accounted (Scheduler.accounted_new now), List.nodup_nil⟩

end Node

end Custody
