/-
Captions of edges and ids of the things that are drawn beside nodes.
-/
import Statechart.Event

namespace Statechart.View

/-- The name of an event as it is shown. -/
def friendlyName (event : String) : String :=
  if event.isEmpty then "?"
  else
    match Event.delay? event with
    | some delay => s!"after {delay}ms"
    | none => if Event.isDone event then "(done)" else event

/-- The caption of an edge: the event, its guard, and its actions on a second line. -/
def edgeLabel (event : String) (guard : Option String) (actions : List String) : String :=
  friendlyName event
    ++ (match guard with
        | some guard => s!" [{guard}]"
        | none => "")
    ++ (if actions.isEmpty then "" else "\n / " ++ ", ".intercalate actions)

/-- The id of the dot that points to what a node enters by itself. -/
def markerId (node : String) : String :=
  node ++ ":initial"

/-- The id of the label that an edge starts from. -/
def anchorId (source event : String) : String :=
  source ++ ":" ++ event

end Statechart.View
