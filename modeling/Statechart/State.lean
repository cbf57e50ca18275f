/-
The state of a machine between events.
-/
import Statechart.History
import Statechart.Timer
import Statechart.Value.Basic
import Statechart.Event

namespace Statechart

/-- The state of a machine, replaced as a whole by every event. -/
structure State where
  /-- What is active. -/
  value : StateValue
  /-- What guards see as `ctx`. -/
  context : Json
  /-- The actions of the last event, in order. -/
  actions : List Action
  /-- The event that led to this state. -/
  event : Event
  /-- Whether the last event took a transition. -/
  changed : Bool
  /-- Whether the machine has come to its end. -/
  done : Bool
  history : HistoryStore
  /-- The timers that the last event armed and cancelled. -/
  timers : List TimerCommand

namespace HistoryStore

/-- A record as a value. -/
def recordToJson (r : HistoryRecord) : Json :=
  .object [("kind", .string r.kind.name), ("nodes", .array (r.nodes.map Json.ofNat))]

/-- The records as a value, by the number of the node. -/
def toJson (h : HistoryStore) : Json :=
  .object [("records", .object (h.entries.map fun e => (Nat.repr e.1, recordToJson e.2)))]

end HistoryStore

namespace State

/-- The state after an event that takes no transition. -/
def unchanged (s : State) (event : Event) : State :=
  { s with actions := [], event, changed := false, timers := [] }

/-- The ids of the active leaves under the id of the machine. -/
def activeIds (s : State) (machine : String) : SortedSet String :=
  s.value.activeIds machine

/-- The state as a value; history and timers are left out when there are none. -/
def toJson (s : State) : Json :=
  .object ([("value", s.value.toJson), ("context", s.context),
      ("actions", .array (s.actions.map Json.string)), ("event", s.event.toJson),
      ("changed", .bool s.changed), ("done", .bool s.done)]
    ++ (if s.history.isEmpty then [] else [("history", s.history.toJson)])
    ++ (if s.timers.isEmpty then [] else
        [("timers", .array (s.timers.map TimerCommand.toJson))]))

end State

end Statechart
