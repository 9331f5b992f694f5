/-
# The course of a notifier

Nothing is known about listeners here but that they answer.  A listener that hears an announcement
hands out something to wait for, and in the world of the listeners time passes until the waiting is
over.  Before a transition applies the notifier waits for every answer before the next listener hears
anything; after it has applied nobody waits.

The snapshot in effect is open to everybody, to those who hear and to those who wait.
-/

import Custody.Notifier.Basic

namespace Custody

/-- How listeners behave in a world of their own, while some snapshot is in effect. -/
structure Conduct (World Reply : Type) where
  /-- A listener hears an announcement and hands out something to wait for. -/
  hear : ListenerId → Snapshot → TopologyEvent → World → Reply × World
  /-- Somebody waits for an answer. -/
  wait : Snapshot → Reply → World → World

/-- A notifier and the world of its listeners. -/
structure Course (World : Type) where
  notifier : Notifier
  world : World

/-- What may be asked of a notifier between transitions. -/
inductive NotifierRequest (World : Type) where
  | add
  | remove (id : ListenerId)
  | install (next : Snapshot)
  | installRing (ring : Ring)
  /-- Something changes in the world of the listeners. -/
  | stir (change : World → World)

namespace Course

variable {World Reply : Type}

/-- A notifier to which nothing has occurred. -/
def new (localNode : NodeId) (initial : Snapshot) (world : World) : Course World :=
  ⟨.new localNode initial, world⟩

/-- The snapshot in effect. -/
def current (course : Course World) : Snapshot := course.notifier.current

/-- One listener hears an announcement. -/
def hear (conduct : Conduct World Reply) (event : TopologyEvent) (id : ListenerId)
    (course : Course World) : Reply × Course World :=
  let (reply, world) := conduct.hear id course.current event course.world
  (reply, { course with world := world })

/-- One listener hears an announcement, and the notifier waits for the answer. -/
def consult (conduct : Conduct World Reply) (event : TopologyEvent) (course : Course World)
    (id : ListenerId) : Course World :=
  let (reply, course) := course.hear conduct event id
  { course with world := conduct.wait course.current reply course.world }

/-- Listeners hear an announcement one after the other, and nobody waits for them. -/
def announce (conduct : Conduct World Reply) (event : TopologyEvent) :
    List ListenerId → Course World → List Reply × Course World
  | [], course => ([], course)
  | id :: rest, course =>
      let (reply, course) := course.hear conduct event id
      let (replies, course) := announce conduct event rest course
      (reply :: replies, course)

/-- The new snapshot of a transition takes effect. -/
def make (course : Course World) (transition : Transition) : Course World :=
  { course with notifier := course.notifier.apply transition }

/-- Install a snapshot.  What is handed out after the transition is returned. -/
def install (conduct : Conduct World Reply) (course : Course World) (next : Snapshot) :
    Except Error (List Reply) × Course World :=
  match course.notifier.propose next with
  | .error failure => (.error failure, course)
  | .ok transition =>
      let course := transition.audience.foldl (consult conduct (transition.event .pre)) course
      let (replies, course) :=
        announce conduct (transition.event .post) transition.audience (course.make transition)
      (.ok replies, course)

/-- Install the ownership of a ring as the next topology. -/
def installRing (conduct : Conduct World Reply) (course : Course World) (ring : Ring) :
    Except Error (List Reply) × Course World :=
  course.install conduct (course.notifier.nextOfRing ring)

/-- The course after a request. -/
def step (conduct : Conduct World Reply) (course : Course World) :
    NotifierRequest World → Course World
  | .add => { course with notifier := course.notifier.addListener.2 }
  | .remove id => { course with notifier := (course.notifier.removeListener id).2 }
  | .install next => (course.install conduct next).2
  | .installRing ring => (course.installRing conduct ring).2
  | .stir change => { course with world := change course.world }

/-- The course after a sequence of requests. -/
def run (conduct : Conduct World Reply) (course : Course World)
    (requests : List (NotifierRequest World)) : Course World :=
  requests.foldl (step conduct) course

end Course

end Custody
