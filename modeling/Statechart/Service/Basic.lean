/-
A service that owns a session.

Clients hand in requests, which are carried out one at a time; between requests the
service fires the timers that are due.  Whatever changes the session is published as a
snapshot with the next number, and nothing else is.
-/
import Statechart.Service.Broadcaster

namespace Statechart

/-- A session with the snapshot of it, and those it is published to. -/
structure Service where
  session : Session
  /-- The snapshot of the session as it is. -/
  current : Snapshot
  broadcaster : Broadcaster
  /-- Whether requests are still taken. -/
  running : Bool

/-- What a client can ask for. -/
inductive Request
  /-- To deliver an event. -/
  | send (event : Event)
  /-- What an event would lead to. -/
  | preview (event : Event)
  /-- The current snapshot. -/
  | snapshot
  /-- To write the members of a patch into the context. -/
  | updateContext (patch : Json)
  /-- To put another machine in place, with the same conditions and limit. -/
  | load (definition : Definition)
  /-- To take no more requests. -/
  | shutdown

/-- What an event would lead to. -/
structure Preview where
  state : State
  activeIds : List String

/-- The answer to a request. -/
inductive Reply
  | snapshot (s : Snapshot)
  | preview (p : Preview)
  | stopped

/-- Why a request has no answer. -/
inductive ServiceError
  | core (e : Error)
  /-- The service takes no requests any more. -/
  | closed

namespace ServiceError

/-- A short name for scripts. -/
def code : ServiceError → String
  | .core e => e.code
  | .closed => "SERVICE_CLOSED"

/-- The text of a closed service. -/
def closedMessage : String := "interpreter service is not running"

end ServiceError

namespace Service

/-- Starts a machine, and publishes its first snapshot. -/
def start (machine : Machine) (capacity now : Nat) : Except Error Service := do
  let session ← Session.start machine now
  let current := Snapshot.ofSession session 1 .start
  return ⟨session, current, (Broadcaster.ofCapacity capacity).publish current, true⟩

/-- Takes over a session and publishes its snapshot. -/
def commit (s : Service) (session : Session) (cause : Cause) : Service :=
  let current := Snapshot.ofSession session (s.current.sequence + 1) cause
  { s with session, current, broadcaster := s.broadcaster.publish current }

/-- Takes over what an operation of the session leads to if it succeeds; else the session
is left as the operation leaves it and nothing is published. -/
def commitIfOk {α : Type} (s : Service) (cause : Cause) (result : Session × Except Error α) :
    Service × Except ServiceError Reply :=
  match result with
  | (session, .ok _) =>
    let s := s.commit session cause
    (s, .ok (.snapshot s.current))
  | (session, .error e) => ({ s with session }, .error (.core e))

/-- Carries out a request, at a moment. -/
def handle (s : Service) (r : Request) (now : Nat) : Service × Except ServiceError Reply :=
  if s.running then
    match r with
    | .send event => s.commitIfOk .event (s.session.send event now)
    | .preview event =>
      (s, match s.session.preview event with
        | .ok state => .ok (.preview ⟨state, (state.activeIds s.session.machine.id).toList⟩)
        | .error e => .error (.core e))
    | .snapshot => (s, .ok (.snapshot s.current))
    | .updateContext patch => s.commitIfOk .context (s.session.updateContext patch)
    | .load definition =>
      s.commitIfOk .load
        (s.session.replaceMachine { s.session.machine with definition } now)
    | .shutdown => ({ s with running := false }, .ok .stopped)
  else
    (s, .error .closed)

/-- Puts the machine of a definition text in place.  The text is read first. -/
def loadText (s : Service) (text : String) (now : Nat) : Service × Except ServiceError Reply :=
  match Definition.ofText text with
  | .ok definition => s.handle (.load definition) now
  | .error e => (s, .error (.core e))

/-- Fires a timer.  One that is not armed any more or whose event fails publishes
nothing. -/
def fire (now : Nat) (s : Service) (key : TimerKey) : Service :=
  match s.session.fireTimer key now with
  | (session, .ok (some _)) => s.commit session .timer
  | (session, _) => { s with session }

/-- Fires the timers that are due at a moment, the earliest first. -/
def fireDue (s : Service) (now : Nat) : Service :=
  (s.session.dueTimers now).foldl (fire now) s

/-- The moment at which the service acts by itself: the earliest deadline, or now if that
is past. -/
def nextWake (s : Service) (now : Nat) : Option Nat :=
  if s.running then s.session.nextDeadline.map (max now) else none

/-- Waits for the next snapshot of a receiver, from a moment on and for at most as many
wake-ups as given.  Tells the moment at which the wait is over. -/
def receive (s : Service) (r : Receiver) (now : Nat) :
    Nat → Service × Receiver × Nat × Option Snapshot
  | 0 =>
    let (r, found) := r.tryReceive s.broadcaster
    (s, r, now, found)
  | patience + 1 =>
    let (r, found) := r.tryReceive s.broadcaster
    if found.isSome || !s.broadcaster.isActive r.subscription then
      (s, r, now, found)
    else
      match s.nextWake now with
      | none => (s, r, now, none)
      | some wake => (s.fireDue wake).receive r wake patience

end Service

end Statechart
