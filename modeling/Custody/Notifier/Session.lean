/-
# Sessions with a notifier

In a session every listener has a name and answers each announcement with an outcome settled
beforehand.  It may also, in one of the two phases, remove a listener or add one.  Everything that a
listener hears or does is logged.
-/

import Custody.Handle
import Custody.Notifier.Basic

namespace Custody

/-- What a listener does besides answering. -/
inductive SideEffect where
  /-- Remove the listener that was added at a place in the order, counted from zero. -/
  | remove (place : Nat)
  /-- Add a listener that does nothing besides answering. -/
  | add (name : String)
deriving Repr

/-- A listener whose behaviour is settled beforehand. -/
structure ScriptedListener where
  name : String
  /-- The answer before a transition applies. -/
  pre : Outcome := .noop
  /-- The answer after it has applied. -/
  post : Outcome := .noop
  /-- What else it does, and in which phase. -/
  effect : Option (Phase × SideEffect) := none

/-- What is logged. -/
inductive NotifierLog where
  /-- A listener heard of a transition, while some topology was in effect. -/
  | heard (name : String) (current : TopologyId) (event : TopologyEvent)
  /-- A listener removed another, or named a place that no listener has. -/
  | removed (name : String) (answer : Option Bool)
  /-- A listener added another. -/
  | added (name : String) (id : ListenerId)

/-- A notifier with its listeners, in the order in which they were added. -/
structure NotifierSession where
  notifier : Notifier
  listeners : List (ListenerId × ScriptedListener)
  log : List NotifierLog

namespace NotifierSession

/-- A session without listeners. -/
def new (localNode : NodeId) (initial : Snapshot) : NotifierSession :=
  ⟨.new localNode initial, [], []⟩

/-- Add to the log. -/
def note (session : NotifierSession) (entry : NotifierLog) : NotifierSession :=
  { session with log := session.log ++ [entry] }

/-- Register a listener. -/
def add (session : NotifierSession) (listener : ScriptedListener) :
    ListenerId × NotifierSession :=
  let (id, notifier) := session.notifier.addListener
  (id, { session with
    notifier := notifier, listeners := session.listeners ++ [(id, listener)] })

/-- Remove the listener that was added at a place, if there is such a place. -/
def remove (session : NotifierSession) (place : Nat) : Option Bool × NotifierSession :=
  match session.listeners[place]? with
  | none => (none, session)
  | some (id, _) =>
      let (answer, notifier) := session.notifier.removeListener id
      (some answer, { session with notifier := notifier })

/-- A listener does what it does besides answering. -/
def sideEffect (session : NotifierSession) (name : String) : SideEffect → NotifierSession
  | .remove place =>
      let (answer, session) := session.remove place
      session.note (.removed name answer)
  | .add newName =>
      let (id, session) := session.add { name := newName }
      session.note (.added name id)

/-- One listener hears an announcement and answers. -/
def deliver (session : NotifierSession) (event : TopologyEvent) (id : ListenerId) :
    Outcome × NotifierSession :=
  match session.listeners.lookup id with
  | none => (.noop, session)
  | some listener =>
      let session := session.note (.heard listener.name session.notifier.topology event)
      let session :=
        match listener.effect with
        | some (phase, effect) =>
            if phase = event.phase then session.sideEffect listener.name effect else session
        | none => session
      (if event.phase.isPre then listener.pre else listener.post, session)

/-- The listeners of an audience hear an announcement one after the other. -/
def announce (session : NotifierSession) (event : TopologyEvent) :
    List ListenerId → List Outcome × NotifierSession
  | [] => ([], session)
  | id :: rest =>
      let (outcome, session) := session.deliver event id
      let (outcomes, session) := announce session event rest
      (outcome :: outcomes, session)

/-- Install a snapshot: announce it, put it into effect, announce it again.  The answers to the
second announcement are returned. -/
def install (session : NotifierSession) (next : Snapshot) :
    Except Error (List Outcome) × NotifierSession :=
  match session.notifier.propose next with
  | .error failure => (.error failure, session)
  | .ok transition =>
      let (_, session) := session.announce (transition.event .pre) transition.audience
      let session := { session with notifier := session.notifier.apply transition }
      let (outcomes, session) := session.announce (transition.event .post) transition.audience
      (.ok outcomes, session)

/-- Install the ownership of a ring as the next topology. -/
def installRing (session : NotifierSession) (ring : Ring) :
    Except Error (List Outcome) × NotifierSession :=
  session.install (session.notifier.nextOfRing ring)

end NotifierSession

/-- A command to a session with a notifier. -/
inductive NotifierCommand where
  | add (listener : ScriptedListener)
  | remove (place : Nat)
  | install (next : Snapshot)
  | installRing (ring : Ring)

namespace NotifierSession

/-- The session after one command. -/
def step (session : NotifierSession) : NotifierCommand → NotifierSession
  | .add listener => (session.add listener).2
  | .remove place => (session.remove place).2
  | .install next => (session.install next).2
  | .installRing ring => (session.installRing ring).2

/-- The session after a sequence of commands. -/
def run (session : NotifierSession) (commands : List NotifierCommand) : NotifierSession :=
  commands.foldl step session

end NotifierSession

end Custody
