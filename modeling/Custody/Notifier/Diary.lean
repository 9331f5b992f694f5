/-
# Diaries

What a notifier does can be told from its listeners alone.  They keep a diary: they write down every
announcement that one of them hears and every answer that somebody waits for, each time with the
snapshot that is in effect.  Apart from that they behave as they did before, and the notifier is not
aware of it.

Each answer is marked with the listener that hands it out and the announcement to which it belongs.
-/

import Custody.Notifier.Course

namespace Custody

/-- An entry of a diary. -/
inductive Occurrence where
  /-- A listener hears an announcement while some snapshot is in effect. -/
  | heard (id : ListenerId) (current : Snapshot) (event : TopologyEvent)
  /-- What a listener does about an announcement has been waited for. -/
  | answered (id : ListenerId) (current : Snapshot) (event : TopologyEvent)
deriving DecidableEq

/-- The listener to which something occurs. -/
def Occurrence.listener : Occurrence → ListenerId
  | heard id _ _ | answered id _ _ => id

/-- The world of listeners who keep a diary. -/
structure Diary (World : Type) where
  world : World
  entries : List Occurrence

/-- What a listener hands out, with its name and the announcement. -/
structure Answer (Reply : Type) where
  listener : ListenerId
  event : TopologyEvent
  reply : Reply

/-- The same listeners, keeping a diary. -/
def Conduct.keeping {World Reply : Type} (conduct : Conduct World Reply) :
    Conduct (Diary World) (Answer Reply) where
  hear id current event diary :=
    let (reply, world) := conduct.hear id current event diary.world
    (⟨id, event, reply⟩, ⟨world, diary.entries ++ [.heard id current event]⟩)
  wait current answer diary :=
    ⟨conduct.wait current answer.reply diary.world,
      diary.entries ++ [.answered answer.listener current answer.event]⟩

/-- The same request among listeners who keep a diary. -/
def NotifierRequest.keeping {World : Type} : NotifierRequest World → NotifierRequest (Diary World)
  | add => add
  | remove id => remove id
  | install next => install next
  | installRing ring => installRing ring
  | stir change => stir fun diary => { diary with world := change diary.world }

/-- The transition to a snapshot. -/
def Notifier.transitionTo (notifier : Notifier) (next : Snapshot) : Transition :=
  ⟨notifier.current, next, notifier.localNode, notifier.listeners⟩

namespace Course

variable {World Reply : Type}

/-- A course at which listeners begin to keep a diary. -/
def keeping (course : Course World) : Course (Diary World) := ⟨course.notifier, ⟨course.world, []⟩⟩

/-- The course without the diary. -/
def plain (course : Course (Diary World)) : Course World := ⟨course.notifier, course.world.world⟩

/-- What the listeners have written down. -/
def entries (course : Course (Diary World)) : List Occurrence := course.world.entries

/-- The course after a sequence of requests among listeners who keep a diary. -/
def kept (conduct : Conduct World Reply) (course : Course World)
    (requests : List (NotifierRequest World)) : Course (Diary World) :=
  course.keeping.run conduct.keeping (requests.map (·.keeping))

/-- The transition that a request brings about, told from its answer. -/
def madeBy (conduct : Conduct World Reply) (course : Course World) :
    NotifierRequest World → Option Transition
  | .install next => told (course.install conduct next).1 next
  | .installRing ring =>
      told (course.installRing conduct ring).1 (course.notifier.nextOfRing ring)
  | .add | .remove _ | .stir _ => none
where
  told (answer : Except Error (List Reply)) (next : Snapshot) : Option Transition :=
    match answer with
    | .ok _ => some (course.notifier.transitionTo next)
    | .error _ => none

/-- The transitions in a sequence of requests, told from the answers. -/
def transitions (conduct : Conduct World Reply) (course : Course World) :
    List (NotifierRequest World) → List Transition
  | [] => []
  | request :: later =>
      (course.madeBy conduct request).toList ++
        (course.step conduct request).transitions conduct later

end Course

end Custody
