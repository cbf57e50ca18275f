/-
Events, and the names of those that the machine raises itself.

The name of a delayed event carries its delay and the node that waits for it, so
that two nodes never wait for the same event; the name of a completion event
carries the node that is complete.
-/
import Statechart.Json.Basic
import Statechart.Text.Counting
import Statechart.Text.Split

namespace Statechart

/-- An event with the data it carries. -/
structure Event where
  /-- The name; the empty name belongs to transitions that wait for no event. -/
  name : String
  payload : Json

namespace Event

/-- The name that transitions without an event are filed under. -/
def eventless : String := ""

/-- The name of the event of the initial state. -/
def initialName : String := "xstate.init"

/-- What the name of a delayed event starts with. -/
def afterStart : String := "xstate.after("

/-- What the name of a completion event starts with. -/
def doneStart : String := "done.state."

/-- An event without data. -/
def named (name : String) : Event := ⟨name, .null⟩

/-- The name of the event that node `id` waits for `delay` milliseconds for. -/
def afterName (delay : Nat) (id : String) : String :=
  afterStart ++ Nat.repr delay ++ ")#" ++ id

/-- The name of the event that node `id` is complete. -/
def doneName (id : String) : String :=
  doneStart ++ id

/-- The delay in the name of a delayed event: what stands before the first closing
parenthesis, if that is a number. -/
def delay? (name : String) : Option Nat := do
  let rest ← Text.afterStart? afterStart.toList name.toList
  if rest.any (· = ')') then Text.word? (rest.takeWhile (· ≠ ')')) else none

/-- Whether a name is that of a completion event. -/
def isDone (name : String) : Bool :=
  (Text.afterStart? doneStart.toList name.toList).isSome

/-- The event as it is shown. -/
def display (e : Event) : String :=
  if e.name.isEmpty then "(eventless)" else e.name

/-- The event as a value; a null payload is left out. -/
def toJson (e : Event) : Json :=
  .object (("name", .string e.name) ::
    (if e.payload.isNull then [] else [("payload", e.payload)]))

end Event

end Statechart
