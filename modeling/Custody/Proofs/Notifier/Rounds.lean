/-
# Rounds of announcements

A transition is announced in two rounds.  In the first the listeners are told one after the other, each
answer is waited for, and the old snapshot is in effect all the time; in the second the new one is.
Here is what one installation does to listeners who keep a diary: it fails and leaves no trace, or they
write down both rounds and the transition is made.

The diary makes no difference to what is done and answered otherwise.
-/

import Mathlib.Data.List.Nodup
import Custody.Notifier.Diary

namespace Custody

namespace Transition

/-- What one listener goes through before a transition applies. -/
def before (transition : Transition) (id : ListenerId) : List Occurrence :=
  [.heard id transition.old (transition.event .pre),
    .answered id transition.old (transition.event .pre)]

/-- What one listener goes through after a transition has applied. -/
def afterwards (transition : Transition) (id : ListenerId) : Occurrence :=
  .heard id transition.new (transition.event .post)

/-- All that occurs in the course of a transition. -/
def rounds (transition : Transition) : List Occurrence :=
  transition.audience.flatMap transition.before ++ transition.audience.map transition.afterwards

/-- What one listener goes through in the course of a transition. -/
def part (transition : Transition) (id : ListenerId) : List Occurrence :=
  transition.before id ++ [transition.afterwards id]

/-- One after the other, some transitions lead from one snapshot to another, each of them to a newer
topology. -/
def Leads : Snapshot → List Transition → Snapshot → Prop
  | first, [], last => first = last
  | first, transition :: rest, last =>
      transition.old = first ∧ first.topology < transition.new.topology ∧
        Leads transition.new rest last

theorem Leads.concat {first last : Snapshot} {made : List Transition} (hleads : Leads first made last)
    {transition : Transition} (hold : transition.old = last)
    (hnewer : last.topology < transition.new.topology) :
    Leads first (made ++ [transition]) transition.new := by
  induction made generalizing first with
  | nil =>
      obtain rfl : first = last := hleads
      exact ⟨hold, hnewer, rfl⟩
  | cons next rest ih => exact ⟨hleads.1, hleads.2.1, ih hleads.2.2⟩

/-- The topologies of transitions ascend, from the one at the start. -/
theorem Leads.ascending {first last : Snapshot} {made : List Transition}
    (hleads : Leads first made last) :
    (first.topology :: made.map (·.new.topology)).Pairwise (· < ·) := by
  induction made generalizing first with
  | nil => exact List.pairwise_singleton _ _
  | cons transition rest ih =>
      obtain ⟨-, hnewer, hrest⟩ := hleads
      have hlater := ih hrest
      refine List.pairwise_cons.mpr ⟨fun topology hmem => ?_, hlater⟩
      rcases List.mem_cons.mp hmem with rfl | hthen
      · exact hnewer
      · exact UInt64.lt_trans hnewer ((List.pairwise_cons.mp hlater).1 topology hthen)

/-- Of what occurs to several listeners one after the other, each has its own. -/
theorem filter_flatMap_listener {own : ListenerId → List Occurrence}
    (hown : ∀ other, ∀ entry ∈ own other, entry.listener = other) {ids : List ListenerId}
    (hdistinct : ids.Nodup) (id : ListenerId) :
    (ids.flatMap own).filter (·.listener = id) = if id ∈ ids then own id else [] := by
  induction ids with
  | nil => rfl
  | cons first rest ih =>
      obtain ⟨hfirst, hrest⟩ := List.nodup_cons.mp hdistinct
      rw [List.flatMap_cons, List.filter_append, ih hrest]
      by_cases hsame : id = first
      · have hall : (own first).filter (·.listener = first) = own first :=
          List.filter_eq_self.mpr fun entry hmem => decide_eq_true (hown first entry hmem)
        subst hsame
        rw [hall, if_neg hfirst, if_pos List.mem_cons_self, List.append_nil]
      · have hnone : (own first).filter (·.listener = id) = [] := by
          refine List.filter_eq_nil_iff.mpr fun entry hmem hmine => hsame ?_
          exact (of_decide_eq_true hmine).symm.trans (hown first entry hmem)
        rw [hnone, List.nil_append]
        simp only [List.mem_cons, hsame, false_or]

/-- Of all that occurs, a listener that is told goes through its part, and any other through
nothing. -/
theorem filter_rounds (transition : Transition) (hdistinct : transition.audience.Nodup)
    (id : ListenerId) :
    transition.rounds.filter (·.listener = id) =
      if id ∈ transition.audience then transition.part id else [] := by
  have hbefore : ∀ other, ∀ entry ∈ transition.before other, entry.listener = other := by
    intro other entry hmem
    rcases List.mem_cons.mp hmem with rfl | hlater
    · rfl
    · rw [List.mem_singleton.mp hlater]
      rfl
  have hafterwards : ∀ other, ∀ entry ∈ [transition.afterwards other], entry.listener = other := by
    intro other entry hmem
    rw [List.mem_singleton.mp hmem]
    rfl
  have hsequel : transition.audience.map transition.afterwards =
      transition.audience.flatMap fun other => [transition.afterwards other] := List.map_eq_flatMap
  rw [rounds, List.filter_append, hsequel, filter_flatMap_listener hbefore hdistinct,
    filter_flatMap_listener hafterwards hdistinct]
  split
  · rfl
  · rfl

end Transition

namespace Notifier

theorem eq_transitionTo {notifier : Notifier} {next : Snapshot} {transition : Transition}
    (hproposed : notifier.propose next = .ok transition) :
    transition = notifier.transitionTo next := by
  unfold propose at hproposed
  split at hproposed
  · cases hproposed
  · exact (Except.ok.inj hproposed).symm

end Notifier

namespace Course

variable {World Reply : Type} {conduct : Conduct World Reply}

theorem plain_foldl_consult (conduct : Conduct World Reply) (event : TopologyEvent)
    (ids : List ListenerId) (course : Course (Diary World)) :
    (ids.foldl (consult conduct.keeping event) course).plain =
      ids.foldl (consult conduct event) course.plain :=
  (List.foldl_hom plain fun _ _ => rfl).symm

theorem plain_announce (conduct : Conduct World Reply) (event : TopologyEvent)
    (ids : List ListenerId) (course : Course (Diary World)) :
    announce conduct event ids course.plain =
      ((announce conduct.keeping event ids course).1.map (·.reply),
        (announce conduct.keeping event ids course).2.plain) := by
  induction ids generalizing course with
  | nil => rfl
  | cons id rest ih =>
      have hhear : course.plain.hear conduct event id =
          ((course.hear conduct.keeping event id).1.reply,
            (course.hear conduct.keeping event id).2.plain) := rfl
      simp only [announce, hhear, ih, List.map_cons]

/-- An installation does and answers the same without the diary. -/
theorem plain_install (conduct : Conduct World Reply) (course : Course (Diary World))
    (next : Snapshot) :
    course.plain.install conduct next =
      ((course.install conduct.keeping next).1.map (List.map (·.reply)),
        (course.install conduct.keeping next).2.plain) := by
  have hnotifier : course.plain.notifier = course.notifier := rfl
  unfold install
  rw [hnotifier]
  cases course.notifier.propose next with
  | error failure => rfl
  | ok transition =>
      have hfirst :=
        plain_foldl_consult conduct (transition.event .pre) transition.audience course
      have hmade : ∀ between : Course (Diary World),
          (between.make transition).plain = between.plain.make transition := fun _ => rfl
      simp only
      rw [← hfirst, ← hmade, plain_announce]
      rfl

theorem plain_step (conduct : Conduct World Reply) (course : Course (Diary World))
    (request : NotifierRequest World) :
    (course.step conduct.keeping request.keeping).plain = course.plain.step conduct request := by
  cases request with
  | install next => exact (congrArg Prod.snd (plain_install conduct course next)).symm
  | installRing ring =>
      exact (congrArg Prod.snd
        (plain_install conduct course (course.notifier.nextOfRing ring))).symm
  | _ => rfl

/-- In the first round the listeners are told and waited for, one after the other. -/
theorem foldl_consult_eq (conduct : Conduct World Reply) (event : TopologyEvent)
    (ids : List ListenerId) (course : Course (Diary World)) :
    ∃ world, ids.foldl (consult conduct.keeping event) course =
      { course with
        world := ⟨world, course.entries ++ ids.flatMap fun id =>
          [.heard id course.current event, .answered id course.current event]⟩ } := by
  induction ids generalizing course with
  | nil => exact ⟨course.world.world, by simp [entries]⟩
  | cons id rest ih =>
      obtain ⟨world, h⟩ := ih (course.consult conduct.keeping event id)
      refine ⟨world, ?_⟩
      rw [List.foldl_cons, h]
      simp [consult, hear, current, entries, Conduct.keeping]

/-- In the second round the listeners are told one after the other, and what each hands out comes
back in that order. -/
theorem announce_eq (conduct : Conduct World Reply) (event : TopologyEvent)
    (ids : List ListenerId) (course : Course (Diary World)) :
    ∃ answers world, announce conduct.keeping event ids course =
        (answers,
          { course with
            world := ⟨world, course.entries ++ ids.map fun id =>
              .heard id course.current event⟩ }) ∧
      answers.map (fun answer => (answer.listener, answer.event)) = ids.map (·, event) := by
  induction ids generalizing course with
  | nil => exact ⟨[], course.world.world, by simp [announce, entries], rfl⟩
  | cons id rest ih =>
      obtain ⟨answers, world, h, hanswers⟩ := ih (course.hear conduct.keeping event id).2
      refine ⟨(course.hear conduct.keeping event id).1 :: answers, world, ?_, ?_⟩
      · simp only [announce, h]
        simp [hear, current, entries, Conduct.keeping]
      · rw [List.map_cons, List.map_cons, hanswers]
        rfl

/-- A snapshot that is not newer is refused, and nothing occurs. -/
theorem install_of_stale (conduct : Conduct World Reply) (course : Course World) {next : Snapshot}
    (hstale : next.topology ≤ course.current.topology) :
    course.install conduct next =
      (.error (.staleTopology course.current.topology next.topology), course) := by
  have hproposed : course.notifier.propose next =
      .error (.staleTopology course.current.topology next.topology) := if_pos hstale
  unfold install
  rw [hproposed]

/-- A newer snapshot is installed, and both rounds are written down. -/
theorem install_of_newer (conduct : Conduct World Reply) (course : Course (Diary World))
    {next : Snapshot} (hnewer : course.current.topology < next.topology) :
    ∃ answers world, course.install conduct.keeping next =
        (.ok answers,
          { notifier := { course.notifier with current := next }
            world := ⟨world, course.entries ++ (course.notifier.transitionTo next).rounds⟩ }) ∧
      answers.map (fun answer => (answer.listener, answer.event)) =
        course.notifier.listeners.map (·, (course.notifier.transitionTo next).event .post) := by
  have hproposed : course.notifier.propose next = .ok (course.notifier.transitionTo next) :=
    if_neg (UInt64.not_le.mpr hnewer)
  generalize hmade : course.notifier.transitionTo next = transition at hproposed
  obtain ⟨between, hfirst⟩ :=
    foldl_consult_eq conduct (transition.event .pre) transition.audience course
  obtain ⟨answers, world, hsecond, hanswers⟩ :=
    announce_eq conduct (transition.event .post) transition.audience
      (transition.audience.foldl (consult conduct.keeping (transition.event .pre)) course
        |>.make transition)
  refine ⟨answers, world, ?_, by rw [hanswers, ← hmade]; rfl⟩
  unfold install
  rw [hproposed]
  dsimp only
  rw [hsecond, hfirst, ← hmade]
  simp only [make, entries, Transition.rounds, List.append_assoc]
  rfl

end Course

end Custody
