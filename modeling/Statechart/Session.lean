/-
A machine at work: its state, and the timers that run.

Every operation takes the session and gives the session after it with an answer.  The
moment at which an operation happens is an argument, in nanoseconds.
-/
import Statechart.Machine

namespace Statechart

/-- A machine with its state and its timers. -/
structure Session where
  machine : Machine
  state : State
  timers : TimerRegistry

namespace Session

/-- Starts a machine. -/
def start (machine : Machine) (now : Nat) : Except Error Session := do
  let state ← machine.initialState
  return { machine, state, timers := TimerRegistry.apply SortedMap.empty state.timers now }

/-- Takes over a state, with the timers that it arms and cancels. -/
def commit (s : Session) (state : State) (now : Nat) : Session :=
  { s with state, timers := s.timers.apply state.timers now }

/-- The state that an event would lead to. -/
def preview (s : Session) (event : Event) : Except Error State :=
  s.machine.transition s.state event

/-- Delivers an event. -/
def send (s : Session) (event : Event) (now : Nat) : Session × Except Error State :=
  match s.preview event with
  | .ok state => (s.commit state now, .ok state)
  | .error e => (s, .error e)

/-- The events that are answered now. -/
def nextEvents (s : Session) : Except Error (List String) :=
  s.machine.nextEvents s.state

/-- Whether an event is answered now. -/
def canHandle (s : Session) (event : String) : Except Error Bool :=
  s.machine.canHandle s.state event

/-- The ids of the active leaves. -/
def activeIds (s : Session) : SortedSet String :=
  s.state.activeIds s.machine.id

/-- A context with the members of a patch; one that is no object is replaced. -/
def merged (context : Json) (patch : List (String × Json)) : Json :=
  match context with
  | .object members => .object (Json.mergeMembers members patch)
  | _ => .object patch

/-- Writes the members of a patch into the context. -/
def updateContext (s : Session) (patch : Json) : Session × Except Error State :=
  match patch with
  | .object members =>
    let state := { s.state with context := merged s.state.context members }
    ({ s with state }, .ok state)
  | _ => (s, .error (.transition .patchNotObject))

/-- Starts another machine in place of the one at work. -/
def replaceMachine (s : Session) (machine : Machine) (now : Nat) :
    Session × Except Error State :=
  match start machine now with
  | .ok fresh => (fresh, .ok fresh.state)
  | .error e => (s, .error e)

/-- The earliest deadline. -/
def nextDeadline (s : Session) : Option Nat :=
  s.timers.nextDeadline

/-- The timers that are due, the earliest first. -/
def dueTimers (s : Session) (now : Nat) : List TimerKey :=
  s.timers.due now

/-- Delivers the event of a timer, which is disarmed first; nothing if it is not armed. -/
def fireTimer (s : Session) (key : TimerKey) (now : Nat) :
    Session × Except Error (Option State) :=
  if s.timers.contains key then
    let (s, answer) := { s with timers := s.timers.cancel key }.send (Event.named key.event) now
    (s, answer.map some)
  else (s, .ok none)

end Session

end Statechart
