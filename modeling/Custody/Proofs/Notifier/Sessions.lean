/-
# Sessions as courses

In a session the answers of listeners are settled beforehand.  As long as listeners do nothing besides
answering, a session is the course of a notifier whose listeners behave that way, and its log is what
they would write down of what they hear, by name.  So the law of deliveries, which holds of listeners
of any kind, holds of sessions too.
-/

import Custody.Notifier.Session
import Custody.Proofs.Notifier.Deliveries

namespace Custody

/-- Listeners with their answers, in the order in which they were added. -/
abbrev Cast := List (ListenerId × ScriptedListener)

/-- How listeners behave whose answers are settled beforehand: what they hand out is the answer
itself. -/
def scripted : Conduct Cast Outcome where
  hear id _ event cast :=
    match cast.lookup id with
    | some listener => (if event.phase.isPre then listener.pre else listener.post, cast)
    | none => (.noop, cast)
  wait _ _ cast := cast

/-- How an occurrence is logged. -/
def logged (cast : Cast) : Occurrence → Option NotifierLog
  | .heard id current event =>
      (cast.lookup id).map fun listener => .heard listener.name current.topology event
  | .answered _ _ _ => none

namespace NotifierSession

variable {session : NotifierSession} {course : Course (Diary Cast)}

/-- The requests that a command amounts to. -/
def requested (session : NotifierSession) : NotifierCommand → List (NotifierRequest Cast)
  | .add listener =>
      [.add, .stir fun cast => cast ++ [(session.notifier.nextListener, listener)]]
  | .remove place => (session.listeners[place]?).toList.map fun entry => .remove entry.1
  | .install next => [.install next]
  | .installRing ring => [.installRing ring]

/-- The requests that a sequence of commands amounts to. -/
def requests (session : NotifierSession) : List NotifierCommand → List (NotifierRequest Cast)
  | [] => []
  | command :: later => session.requested command ++ (session.step command).requests later

/-- A command installs no other snapshots than its requests. -/
theorem install_mem_requested {command : NotifierCommand} {next : Snapshot}
    (hmem : .install next ∈ session.requested command) : command = .install next := by
  cases command with
  | add listener => simp [requested] at hmem
  | remove place => simp [requested] at hmem
  | install other => simpa [requested, eq_comm] using hmem
  | installRing ring => simp [requested] at hmem

theorem install_mem_requests {commands : List NotifierCommand} {next : Snapshot}
    (hmem : .install next ∈ session.requests commands) : .install next ∈ commands := by
  induction commands generalizing session with
  | nil => cases hmem
  | cons command later ih =>
      rcases List.mem_append.mp hmem with hnow | hthen
      · exact install_mem_requested hnow ▸ List.mem_cons_self
      · exact List.mem_cons_of_mem command (ih hthen)

/-- A command by which no listener comes that does something besides answering. -/
def Plain : NotifierCommand → Prop
  | .add listener => listener.effect = none
  | .remove _ | .install _ | .installRing _ => True

/-- A session in which listeners do nothing besides answering, and a course with the same notifier. -/
structure Follows (session : NotifierSession) (course : Course (Diary Cast)) : Prop where
  notifier : session.notifier = course.notifier
  cast : session.listeners = course.plain.world
  log : session.log = course.entries.filterMap (logged session.listeners)
  plain : ∀ id listener, session.listeners.lookup id = some listener → listener.effect = none
  known : ∀ id ∈ session.notifier.listeners, ∃ listener, session.listeners.lookup id = some listener
  recorded : ∀ occurrence ∈ course.entries,
    ∃ listener, session.listeners.lookup occurrence.listener = some listener

namespace Follows

theorem new (localNode : NodeId) (initial : Snapshot) :
    Follows (.new localNode initial) (Course.new localNode initial []).keeping where
  notifier := rfl
  cast := rfl
  log := rfl
  plain _ _ hnone := nomatch hnone
  known _ hmem := nomatch hmem
  recorded _ hmem := nomatch hmem

/-- A listener hears an announcement and answers. -/
theorem deliver (hfollows : session.Follows course) (event : TopologyEvent) {id : ListenerId}
    (hknown : ∃ listener, session.listeners.lookup id = some listener) :
    (session.deliver event id).1 = (course.hear scripted.keeping event id).1.reply ∧
      (session.deliver event id).2.Follows (course.hear scripted.keeping event id).2 ∧
      (session.deliver event id).2.listeners = session.listeners ∧
      (session.deliver event id).2.notifier = session.notifier := by
  obtain ⟨listener, hlistener⟩ := hknown
  have hplain := hfollows.plain id listener hlistener
  have hcast : course.plain.world.lookup id = some listener := hfollows.cast ▸ hlistener
  have hheard : session.deliver event id =
      (if event.phase.isPre then listener.pre else listener.post,
        session.note (.heard listener.name session.notifier.topology event)) := by
    simp only [NotifierSession.deliver, hlistener, hplain]
  have hcourse : course.hear scripted.keeping event id =
      (⟨id, event, if event.phase.isPre then listener.pre else listener.post⟩,
        { course with
          world := ⟨course.world.world, course.entries ++ [.heard id course.current event]⟩ }) := by
    simp only [Course.plain] at hcast
    simp only [Course.hear, Conduct.keeping, scripted, hcast, Course.entries]
  rw [hheard, hcourse]
  refine ⟨rfl, ?_, rfl, rfl⟩
  exact
    { hfollows with
      log := by
        simp [note, hfollows.log, Course.entries, List.filterMap_append, logged, hlistener,
          hfollows.notifier, Notifier.topology, Course.current]
      recorded := fun occurrence hmem => by
        rcases List.mem_append.mp hmem with hbefore | hnow
        · exact hfollows.recorded occurrence hbefore
        · rw [List.mem_singleton.mp hnow]
          exact ⟨listener, hlistener⟩ }

/-- Before a transition the answers are waited for. -/
theorem consult (hfollows : session.Follows course) (event : TopologyEvent) {id : ListenerId}
    (hknown : ∃ listener, session.listeners.lookup id = some listener) :
    (session.deliver event id).2.Follows (course.consult scripted.keeping event id) := by
  obtain ⟨-, hheard, hlisteners, -⟩ := hfollows.deliver event hknown
  exact
    { hheard with
      log := by
        rw [hheard.log]
        simp [Course.consult, Course.entries, Conduct.keeping, List.filterMap_append, logged]
      recorded := fun occurrence hmem => by
        rcases List.mem_append.mp hmem with hbefore | hnow
        · exact hheard.recorded occurrence hbefore
        · rw [List.mem_singleton.mp hnow, hlisteners]
          exact hknown }

/-- All who are told before a transition are waited for. -/
theorem consultAll (hfollows : session.Follows course) (event : TopologyEvent)
    {ids : List ListenerId}
    (hknown : ∀ id ∈ ids, ∃ listener, session.listeners.lookup id = some listener) :
    (session.announce event ids).2.Follows (ids.foldl (Course.consult scripted.keeping event) course) ∧
      (session.announce event ids).2.listeners = session.listeners ∧
      (session.announce event ids).2.notifier = session.notifier := by
  induction ids generalizing session course with
  | nil => exact ⟨hfollows, rfl, rfl⟩
  | cons id rest ih =>
      have hfirst := hknown id List.mem_cons_self
      obtain ⟨-, -, hlisteners, hnotifier⟩ := hfollows.deliver event hfirst
      obtain ⟨hlater, hcast, hplace⟩ := ih (hfollows.consult event hfirst) fun other hmem =>
        hlisteners ▸ hknown other (List.mem_cons_of_mem id hmem)
      exact ⟨hlater, hcast.trans hlisteners, hplace.trans hnotifier⟩

/-- After a transition nobody is waited for. -/
theorem announce (hfollows : session.Follows course) (event : TopologyEvent)
    {ids : List ListenerId}
    (hknown : ∀ id ∈ ids, ∃ listener, session.listeners.lookup id = some listener) :
    (session.announce event ids).1 =
        (Course.announce scripted.keeping event ids course).1.map (·.reply) ∧
      (session.announce event ids).2.Follows
        (Course.announce scripted.keeping event ids course).2 := by
  induction ids generalizing session course with
  | nil => exact ⟨rfl, hfollows⟩
  | cons id rest ih =>
      obtain ⟨hanswer, hheard, hlisteners, -⟩ := hfollows.deliver event (hknown id List.mem_cons_self)
      obtain ⟨hanswers, hlater⟩ := ih hheard fun other hmem =>
        hlisteners ▸ hknown other (List.mem_cons_of_mem id hmem)
      exact ⟨congrArg₂ List.cons hanswer hanswers, hlater⟩

theorem install (hfollows : session.Follows course) (next : Snapshot) :
    (session.install next).1 =
        (course.install scripted.keeping next).1.map (List.map (·.reply)) ∧
      (session.install next).2.Follows (course.install scripted.keeping next).2 := by
  unfold NotifierSession.install Course.install
  rw [← hfollows.notifier]
  cases hproposed : session.notifier.propose next with
  | error failure => exact ⟨rfl, hfollows⟩
  | ok transition =>
      have hknown : ∀ id ∈ transition.audience,
          ∃ listener, session.listeners.lookup id = some listener := by
        rw [Notifier.eq_transitionTo hproposed]
        exact hfollows.known
      obtain ⟨hfirst, hlisteners, -⟩ := hfollows.consultAll (transition.event .pre) hknown
      let between := (session.announce (transition.event .pre) transition.audience).2
      let meanwhile := transition.audience.foldl
        (Course.consult scripted.keeping (transition.event .pre)) course
      have hmade : Follows { between with notifier := between.notifier.apply transition }
          (meanwhile.make transition) :=
        { hfirst with notifier := congrArg (Notifier.apply · transition) hfirst.notifier }
      obtain ⟨hanswers, hlater⟩ := hmade.announce (transition.event .post) fun id hmem =>
        hlisteners.symm ▸ hknown id hmem
      exact ⟨congrArg Except.ok hanswers, hlater⟩

/-- Whoever has an answer keeps it when another listener is added. -/
theorem lookup_append {cast : Cast} {id : ListenerId} {listener : ScriptedListener}
    (hknown : cast.lookup id = some listener) (more : Cast) :
    (cast ++ more).lookup id = some listener := by
  rw [List.lookup_append, hknown]
  rfl

theorem add (hfollows : session.Follows course) {listener : ScriptedListener}
    (hplain : listener.effect = none) :
    (session.add listener).2.Follows
      (course.run scripted.keeping
        ((session.requested (.add listener)).map (·.keeping))) where
  notifier := congrArg (·.addListener.2) hfollows.notifier
  cast := congrArg (· ++ [(session.notifier.nextListener, listener)]) hfollows.cast
  log := by
    -- Everybody who was heard of is in the cast already, and keeps the name.
    refine hfollows.log.trans (List.filterMap_congr fun occurrence hmem => ?_)
    obtain ⟨other, hother⟩ := hfollows.recorded occurrence hmem
    cases occurrence with
    | answered id current event => rfl
    | heard id current event =>
        have hstill := lookup_append hother [(session.notifier.nextListener, listener)]
        simp only [Occurrence.listener] at hother hstill
        simp [logged, NotifierSession.add, Notifier.addListener, hother, hstill]
  plain id other hfound := by
    have hfound' : (session.listeners ++
        [(session.notifier.nextListener, listener)]).lookup id = some other := hfound
    rw [List.lookup_append] at hfound'
    rcases Option.or_eq_some_iff.mp hfound' with hbefore | ⟨-, hnew⟩
    · exact hfollows.plain id other hbefore
    · rw [List.lookup_cons] at hnew
      split at hnew
      · rw [← Option.some.inj hnew]
        exact hplain
      · cases hnew
  known id hmem := by
    rcases List.mem_append.mp hmem with hbefore | hnow
    · obtain ⟨other, hother⟩ := hfollows.known id hbefore
      exact ⟨other, lookup_append hother _⟩
    · rw [List.mem_singleton.mp hnow]
      show ∃ other, (session.listeners ++ [(session.notifier.nextListener, listener)]).lookup
        session.notifier.nextListener = some other
      rw [List.lookup_append, List.lookup_cons_self]
      cases session.listeners.lookup session.notifier.nextListener with
      | none => exact ⟨listener, rfl⟩
      | some other => exact ⟨other, rfl⟩
  recorded occurrence hmem := by
    obtain ⟨other, hother⟩ := hfollows.recorded occurrence hmem
    exact ⟨other, lookup_append hother _⟩

theorem remove (hfollows : session.Follows course) (place : Nat) :
    (session.remove place).2.Follows
      (course.run scripted.keeping
        ((session.requested (.remove place)).map (·.keeping))) := by
  cases hplace : session.listeners[place]? with
  | none =>
      simp only [NotifierSession.remove, requested, hplace]
      exact hfollows
  | some entry =>
      simp only [NotifierSession.remove, requested, hplace]
      exact
        { hfollows with
          notifier := congrArg (fun notifier => (notifier.removeListener entry.1).2)
            hfollows.notifier
          known := fun other hmem => hfollows.known other (List.mem_of_mem_filter hmem) }

theorem step (hfollows : session.Follows course) {command : NotifierCommand}
    (hplain : Plain command) :
    (session.step command).Follows
      (course.run scripted.keeping ((session.requested command).map (·.keeping))) := by
  cases command with
  | add listener => exact hfollows.add hplain
  | remove place => exact hfollows.remove place
  | install next => exact (hfollows.install next).2
  | installRing ring =>
      have hinstalled := (hfollows.install (session.notifier.nextOfRing ring)).2
      simp only [requested, NotifierSession.step, installRing]
      rw [hfollows.notifier] at hinstalled ⊢
      exact hinstalled

/-- A session in which listeners only answer is the course that its commands amount to. -/
theorem run (hfollows : session.Follows course) {commands : List NotifierCommand}
    (hplain : ∀ command ∈ commands, Plain command) :
    (session.run commands).Follows
      (course.run scripted.keeping ((session.requests commands).map (·.keeping))) := by
  induction commands generalizing session course with
  | nil => exact hfollows
  | cons command rest ih =>
      have hlater := ih (hfollows.step (hplain command List.mem_cons_self)) fun other hmem =>
        hplain other (List.mem_cons_of_mem command hmem)
      rw [requests, List.map_append, Course.run, List.foldl_append]
      exact hlater

end Follows

/-- What is true of a session in which listeners only answer.  It is the course of such listeners, it
answers as they do, and the law of deliveries holds of it. -/
structure Delivers (localNode : NodeId) (initial : Snapshot) (commands : List NotifierCommand)
    (session : NotifierSession) (course : Course (Diary Cast)) : Prop where
  follows : session.Follows course
  answers : ∀ next, (session.install next).1 =
    (course.install scripted.keeping next).1.map (List.map (·.reply))
  lawful : Course.Lawful scripted (Course.new localNode initial [])
    ((NotifierSession.new localNode initial).requests commands) course

end NotifierSession

namespace Notifier

/-- The law of deliveries holds of every notifier, whatever is asked of it and however its listeners
behave, and in particular of every session in which listeners only answer. -/
theorem deliveries_lawful (localNode : NodeId) {initial : Snapshot} (hinitial : initial.Checked) :
    (∀ (World Reply : Type) (conduct : Conduct World Reply) (world : World)
      (requests : List (NotifierRequest World)),
      (∀ next, .install next ∈ requests → next.Checked) →
        Course.Lawful conduct (Course.new localNode initial world) requests
          ((Course.new localNode initial world).kept conduct requests)) ∧
    ∀ commands : List NotifierCommand,
      (∀ command ∈ commands, NotifierSession.Plain command) →
      (∀ next, .install next ∈ commands → next.Checked) →
        NotifierSession.Delivers localNode initial commands
          ((NotifierSession.new localNode initial).run commands)
          ((Course.new localNode initial []).kept scripted
            ((NotifierSession.new localNode initial).requests commands)) := by
  constructor
  · intro World Reply conduct world requests hchecked
    exact Course.lawful_kept conduct localNode hinitial world requests hchecked
  · intro commands hplain hchecked
    have hfollows := (NotifierSession.Follows.new localNode initial).run hplain
    exact
      { follows := hfollows
        answers := fun next => (hfollows.install next).1
        lawful := Course.lawful_kept scripted localNode hinitial [] _ fun next hmem =>
          hchecked next (NotifierSession.install_mem_requests hmem) }

/-- Listeners who count the announcements that they hear. -/
def counting : Conduct Nat Nat := ⟨fun _ _ _ heard => (heard, heard + 1), fun _ _ heard => heard⟩

/-- Two nodes that share two segments. -/
def shared : Snapshot := .ofParts 1 [1, 2] [[1], [2]]

/-- The first node has left. -/
def handedOver : Snapshot := .ofParts 4 [2] [[2], [2]]

/-- Two listeners are added, and one of them is removed between two transitions. -/
def comings : List (NotifierRequest Nat) :=
  [.add, .add, .installRing ((Ring.empty 1 1).add 2), .remove 1, .install handedOver]

/-- The same in a session. -/
def comingsByName : List NotifierCommand :=
  [.add { name := "first" }, .add { name := "second", post := .superseded },
    .installRing ((Ring.empty 1 1).add 2), .remove 0, .install handedOver]

theorem deliveries_lawful_comings :
    shared.Checked ∧ (∀ next, .install next ∈ comings → next.Checked) ∧
      Course.Lawful counting (Course.new 1 shared 0) comings
        ((Course.new 1 shared 0).kept counting comings) ∧
      NotifierSession.Delivers 1 shared comingsByName
        ((NotifierSession.new 1 shared).run comingsByName)
        ((Course.new 1 shared []).kept scripted
          ((NotifierSession.new 1 shared).requests comingsByName)) := by
  have hshared : shared.Checked := ⟨1, [1, 2], [[1], [2]], rfl⟩
  have hhandedOver : handedOver.Checked := ⟨4, [2], [[2], [2]], rfl⟩
  have hcomings : ∀ next, .install next ∈ comings → next.Checked := by
    intro next hmem
    obtain rfl : next = handedOver := by simpa [comings] using hmem
    exact hhandedOver
  have hnamed : ∀ next, .install next ∈ comingsByName → next.Checked := by
    intro next hmem
    obtain rfl : next = handedOver := by simpa [comingsByName] using hmem
    exact hhandedOver
  have hplain : ∀ command ∈ comingsByName, NotifierSession.Plain command := by
    simp [comingsByName, NotifierSession.Plain]
  exact ⟨hshared, hcomings,
    (deliveries_lawful 1 hshared).1 Nat Nat counting 0 comings hcomings,
    (deliveries_lawful 1 hshared).2 comingsByName hplain hnamed⟩

end Notifier

end Custody
