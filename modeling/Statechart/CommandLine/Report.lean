/-
What the program shows of a machine.
-/
import Statechart.CommandLine.EventText
import Statechart.CommandLine.Paint
import Statechart.Json.Printer
import Statechart.Session
import Statechart.View.Graph

namespace Statechart.CommandLine

/-- Why a command fails. -/
inductive Failure
  | core (e : Error)
  /-- A payload or a patch is no value. -/
  | payload (source : Json.NoValue)

/-- The text of a failure. -/
def Failure.message : Failure → String
  | .core e => e.message
  | .payload source => source.message

/-- A state in one line: the event that led to it, what is active, and what happened on
the way. -/
def stepLine (colored : Bool) (s : State) : String :=
  paint colored [.cyan] s.event.name ++ " " ++ paint colored [.dim] "->" ++ " "
    ++ paint colored [.yellow] s.value.display
    ++ (if s.actions.isEmpty then "" else " [" ++ ", ".intercalate s.actions ++ "]")
    ++ (if s.changed then "" else " " ++ paint colored [.dim] "(unchanged)")
    ++ (if s.done then " " ++ paint colored [.green] "(done)" else "")

/-- A state as the command line shows it. -/
def showStep (colored json : Bool) (s : State) : String :=
  if json then s.toJson.compact else stepLine colored s

/-- How many nodes of a tree are of some kinds. -/
def countKind (t : Tree) (p : NodeKind → Bool) : Nat :=
  t.nodes.toList.countP fun n => p n.kind

/-- What is in a definition. -/
def summary (colored : Bool) (d : Definition) : String :=
  let line (label : String) (n : Nat) : String := "\n  " ++ label ++ ": " ++ Nat.repr n
  paint colored [.green] "Valid" ++ " machine " ++ paint colored [.cyan] d.name ++ " (checksum: " ++ d.checksum ++ ")"
    ++ line "States" d.tree.size
    ++ line "Parallel" (countKind d.tree (· == .parallel))
    ++ line "Final" (countKind d.tree (· == .final))
    ++ line "History" (countKind d.tree NodeKind.isHistory)
    ++ "\n  Events: " ++ ", ".intercalate d.events

/-- The ids of what is active at the start, each on a line. -/
def initialIds (d : Definition) : Except Failure String := do
  let m := Machine.ofDefinition d
  let s ← m.initialState.mapError Failure.core
  return "\n".intercalate (s.activeIds m.id).toList

/-- The lines for the states after each of some events, until one fails. -/
def stepLines (colored json : Bool) (s : Session) : List String → Except Failure (List String)
  | [] => .ok []
  | arg :: rest => do
    let event ← (Event.ofArgument arg).mapError Failure.payload
    let (s, answer) := s.send event 0
    let state ← answer.mapError Failure.core
    return showStep colored json state :: (← stepLines colored json s rest)

/-- The states from the start on through some events, each on a line. -/
def runEvents (colored : Bool) (d : Definition) (limit : Nat) (events : List String)
    (json : Bool) : Except Failure String := do
  let m := { Machine.ofDefinition d with transientLimit := limit }
  let s ← (Session.start m 0).mapError Failure.core
  return "\n".intercalate
    (showStep colored json s.state :: (← stepLines colored json s events))

/-- The graph of a definition. -/
def graphText (d : Definition) : String :=
  (View.Graph.ofTree d.tree).toJson.pretty

end Statechart.CommandLine
