/-
Guards of transitions.

A guard is an expression, or the name of a condition that is looked up in a table
when the transition is considered.
-/
import Statechart.Event
import Statechart.Guard.Parser
import Statechart.Order.SortedMap
import Statechart.Text.Quoted

namespace Statechart

/-- The guard of a transition. -/
inductive Guard
  /-- An expression, kept with its text. -/
  | expr (source : String) (expr : GuardExpr)
  /-- A condition with a name. -/
  | named (name : String)

namespace Guard

/-- The guard that a text spells: an identifier other than `ctx` and `event` is a name,
anything else has to be an expression. -/
def parse (text : String) : Except GuardFault Guard :=
  let text := Text.trim text
  if Text.isIdentifier text.toList && text != "ctx" && text != "event" then
    .ok (.named text)
  else do
    let e ← GuardExpr.parse text
    return .expr text e

/-- The text under which a guard is shown. -/
def label : Guard → String
  | .expr source _ => source
  | .named name => name

end Guard

/-- A condition on the context and the event, which may fail with a reason. -/
abbrev Condition := Json → Event → Except String Bool

/-- The conditions that are known by name. -/
abbrev GuardTable := SortedMap String Condition

/-- Why a guard has no truth value. -/
structure GuardFailure where
  guard : String
  reason : String

namespace GuardTable

/-- The truth of a guard. -/
def evaluate (table : GuardTable) (guard : Guard) (context : Json) (event : Event) :
    Except GuardFailure Bool :=
  match guard with
  | .expr _ e => .ok (e.evaluate context event.payload)
  | .named name =>
    match table.get? name with
    | none => .error ⟨name, "guard is not registered"⟩
    | some condition =>
      match condition context event with
      | .ok b => .ok b
      | .error reason => .error ⟨name, reason⟩

/-- The truth of a guard that may be absent, which is then true. -/
def allows (table : GuardTable) (guard : Option Guard) (context : Json) (event : Event) :
    Except GuardFailure Bool :=
  match guard with
  | none => .ok true
  | some guard => table.evaluate guard context event

/-- The names of a table as a list of quoted texts, for display. -/
def describe (table : GuardTable) : String :=
  "GuardEvaluator \x7b named: [" ++ ", ".intercalate (table.keys.map Text.quoted) ++ "] \x7d"

end GuardTable

end Statechart
