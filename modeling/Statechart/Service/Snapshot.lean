/-
Snapshots of a session, and filters for them.
-/
import Statechart.Session

namespace Statechart

/-- Why a snapshot was published. -/
inductive Cause
  /-- The machine was started. -/
  | start
  /-- An event was delivered. -/
  | event
  /-- A timer was due. -/
  | timer
  /-- The context was patched. -/
  | context
  /-- Another machine was put in place. -/
  | load
  deriving DecidableEq

namespace Cause

/-- The word for a cause. -/
def name : Cause → String
  | .start => "start"
  | .event => "event"
  | .timer => "timer"
  | .context => "context"
  | .load => "load"

/-- All causes. -/
def all : List Cause := [.start, .event, .timer, .context, .load]

/-- The cause with a name. -/
def ofName? (name : String) : Option Cause :=
  all.find? fun c => c.name == name

end Cause

/-- A session as subscribers see it. -/
structure Snapshot where
  /-- One more than that of the snapshot before. -/
  sequence : Nat
  machine : String
  checksum : String
  cause : Cause
  state : State
  activeIds : List String
  nextEvents : List String

namespace Snapshot

/-- The snapshot of a session.  Events that cannot be computed are left out. -/
def ofSession (s : Session) (sequence : Nat) (cause : Cause) : Snapshot where
  sequence
  machine := s.machine.id
  checksum := s.machine.definition.checksum
  cause
  state := s.state
  activeIds := s.activeIds.toList
  nextEvents := s.nextEvents.toOption.getD []

/-- The snapshot as a value. -/
def toJson (s : Snapshot) : Json :=
  .object [("sequence", .ofNat s.sequence), ("machine", .string s.machine),
    ("checksum", .string s.checksum), ("cause", .string s.cause.name),
    ("state", s.state.toJson), ("active_ids", .array (s.activeIds.map Json.string)),
    ("next_events", .array (s.nextEvents.map Json.string))]

end Snapshot

/-- Which snapshots a subscriber wants. -/
structure SnapshotFilter where
  /-- The causes wanted; all if none is named. -/
  causes : List Cause
  /-- The names of the events wanted; all if none is named. -/
  events : List String
  /-- Whether only a snapshot whose event took a transition is wanted. -/
  changedOnly : Bool

namespace SnapshotFilter

/-- The filter that lets everything pass. -/
def everything : SnapshotFilter := ⟨[], [], false⟩

/-- Whether a filter lets a snapshot pass. -/
def accepts (f : SnapshotFilter) (s : Snapshot) : Bool :=
  (f.causes.isEmpty || f.causes.contains s.cause)
    && (f.events.isEmpty || f.events.contains s.state.event.name)
    && (!f.changedOnly || s.state.changed)

end SnapshotFilter

end Statechart
