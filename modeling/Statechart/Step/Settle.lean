/-
Steps until a machine comes to rest.

After every step the transitions without an event are tried first; only when none is
enabled are the completion events offered, in the order they were raised, and those
that nothing answers are dropped.  The number of steps is limited.
-/
import Statechart.Step.Microstep

namespace Statechart.Step

/-- What the steps of a machine depend on and never change. -/
structure Surroundings where
  tree : Tree
  table : GuardTable
  context : Json
  /-- The event that started the steps. -/
  origin : Event

namespace Surroundings

/-- The transitions that are taken for an event. -/
def select (e : Surroundings) (config : NodeSet) (event : Event) (name : String) :
    Except Error (List Candidate) :=
  Selection.select e.tree ⟨e.table, e.context, event⟩ name config

/-- The transitions of the first completion event that is answered, and the events after
it. -/
def offer (e : Surroundings) (config : NodeSet) :
    List String → Except Error (List Candidate × List String)
  | [] => .ok ([], [])
  | name :: rest => do
    let selected ← e.select config (Event.named name) name
    if selected.isEmpty then offer e config rest else return (selected, rest)

/-- The transitions that are taken next without a new event, and the completion events
that still wait then. -/
def next (e : Surroundings) (s : Step) : Except Error (List Candidate × List String) := do
  let selected ← e.select s.config e.origin Event.eventless
  if selected.isEmpty then e.offer s.config s.raised else return (selected, s.raised)

/-- Takes steps until nothing is enabled or the machine is done, at most `budget` of
them; `limit` is what is reported when they do not suffice. -/
def settle (e : Surroundings) (limit : Nat) (budget : Nat) (s : Step) : Except Error Step :=
  if s.done then .ok s
  else do
    let (selected, raised) ← e.next s
    let s := { s with raised }
    if selected.isEmpty then return s
    else
      match budget with
      | 0 => throw (.transientCycle e.origin.name limit)
      | budget + 1 => do
        let s ← s.microstep e.tree selected
        settle e limit budget s

end Surroundings

end Statechart.Step
