/-
# Sessions with a reconciling listener

In a session the tasks of the listener answer with results settled beforehand and log what they were
asked to do.  The same listener may be registered more than once; it then hears every announcement
as often, and closing any of its registrations shuts its executor down.
-/

import Custody.Listener.Basic

namespace Custody

/-- What the tasks of a session log. -/
inductive TaskLog (K : Type) where
  | cancel (kept : SegmentLocality K)
  | install (new : SegmentLocality K)
  | schedule (old new : SegmentLocality K) (cancelled : Bool)

/-- The results that tasks will give, and what they have logged. -/
structure TaskScript (K : Type) where
  /-- The results of cancellation passes, in order; nothing stands for one that breaks down, and
  when they are used up a pass finds nothing to disarm. -/
  cancels : List (Option CancelPass)
  /-- The results of scheduling passes, in order; when they are used up a pass finds nothing. -/
  schedules : List (Except Error Report)
  /-- Whether installing a locality is left out. -/
  silentInstall : Bool
  log : List (TaskLog K)

/-- The work of a pass in a session: the localities it leads between. -/
abbrev LoggedWork (K : Type) := SegmentLocality K × SegmentLocality K

namespace TaskScript

variable {K : Type}

/-- Add to the log. -/
def note (script : TaskScript K) (entry : TaskLog K) : TaskScript K :=
  { script with log := script.log ++ [entry] }

/-- The tasks that follow a script. -/
def tasks : Tasks K (LoggedWork K) (TaskScript K) where
  cancel kept script :=
    (script.cancels.headD (some ⟨0, .zero⟩),
      { script with cancels := script.cancels.tail }.note (.cancel kept))
  install new script := if script.silentInstall then script else script.note (.install new)
  schedule old new := (old, new)

/-- The work of a pass runs through and returns the next result. -/
def goOn : GoOn (LoggedWork K) (TaskScript K) := fun cancelled work script =>
  (.inr (script.schedules.headD (.ok {})),
    { script with schedules := script.schedules.tail }.note
      (.schedule work.1 work.2 cancelled))

end TaskScript

/-- A listener with its notifier and registrations. -/
structure ListenerSession (K : Type) where
  notifier : Notifier
  listener : Listener K (LoggedWork K)
  script : TaskScript K
  /-- The registrations in the order in which they were made; nothing stands for one that is closed
  or was never made. -/
  registrations : List (Option ListenerId)

namespace ListenerSession

variable {K : Type}

/-- A session without registrations. -/
def new (localNode : NodeId) (initial : Snapshot) (partitioner : Partitioner K) (config : Config)
    (script : TaskScript K) : Except Error (ListenerSession K) :=
  (Listener.new partitioner config).map fun listener =>
    ⟨.new localNode initial, listener, script, []⟩

/-- Come to rest. -/
def settle (session : ListenerSession K) : ListenerSession K :=
  let (executor, script) := session.listener.executor.settle TaskScript.goOn session.script
  { session with listener := { session.listener with executor := executor }, script := script }

/-- Register the listener. -/
def register (session : ListenerSession K) : Option ListenerId × ListenerSession K :=
  let (id, listener, notifier, script) :=
    session.listener.register TaskScript.tasks session.notifier session.script
  (id, ⟨notifier, listener, script, session.registrations ++ [id]⟩)

/-- End a registration; what it was is returned. -/
def unregister (session : ListenerSession K) (place : Nat) :
    Option ListenerId × ListenerSession K :=
  match session.registrations[place]?.join with
  | none => (none, session)
  | some id =>
      (some id,
        { session with
          notifier := (session.notifier.removeListener id).2
          registrations := session.registrations.set place none })

/-- Close a registration and wait for the worker to finish.  One that is not active is closed
already. -/
def close (session : ListenerSession K) (place : Nat) : Bool × ListenerSession K :=
  match session.unregister place with
  | (none, session) => (true, session)
  | (some _, session) =>
      let (answer, executor, script) :=
        session.listener.executor.shutdown TaskScript.goOn session.script
      (answer,
        { session with
          listener := { session.listener with executor := executor }, script := script })

/-- Let go of a registration without waiting. -/
def abandon (session : ListenerSession K) (place : Nat) : ListenerSession K :=
  match session.unregister place with
  | (none, session) => session
  | (some _, session) =>
      { session with
        listener := { session.listener with executor := session.listener.executor.shutdownNow } }

/-- The listener hears one announcement. -/
def deliver (session : ListenerSession K) (event : TopologyEvent) : Handle × ListenerSession K :=
  let (handle, listener, script) :=
    session.listener.react TaskScript.tasks event session.script
  (handle, { session with listener := listener, script := script })

/-- The listener hears an announcement as often as it stands in an audience. -/
def announce (session : ListenerSession K) (event : TopologyEvent) :
    List ListenerId → List Handle × ListenerSession K
  | [] => ([], session)
  | _ :: rest =>
      let (handle, session) := session.deliver event
      let (handles, session) := announce session event rest
      (handle :: handles, session)

/-- Install a snapshot.  The handles of the second announcement are returned. -/
def install (session : ListenerSession K) (next : Snapshot) :
    Except Error (List Handle) × ListenerSession K :=
  match session.notifier.propose next with
  | .error failure => (.error failure, session)
  | .ok transition =>
      let (_, session) := session.announce (transition.event .pre) transition.audience
      let session := { session with notifier := session.notifier.apply transition }
      let (handles, session) := session.announce (transition.event .post) transition.audience
      (.ok handles, session)

/-- What has arrived at a handle when the session is at rest. -/
def outcome (session : ListenerSession K) (handle : Handle) : Outcome :=
  (handle.receive session.listener.executor).wait

end ListenerSession

end Custody
