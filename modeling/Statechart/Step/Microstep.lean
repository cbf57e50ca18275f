/-
One step of a machine: several transitions at once.

Everything below the domains is exited, innermost first, after history nodes have
recorded; then the actions of the transitions run; then the nodes of the entry set
that are not active are entered, outermost first.  Entering a final node may complete
its parent and, through it, a parallel node above.
-/
import Statechart.Step.Entry
import Statechart.Step.Selection
import Statechart.Timer

namespace Statechart

/-- A machine in the middle of its steps. -/
structure Step where
  config : NodeSet
  history : HistoryStore
  /-- The actions that have run, in order. -/
  actions : List Action
  timers : List TimerCommand
  /-- The names of the completion events that no transition has been offered yet. -/
  raised : List String
  /-- Whether the root is complete. -/
  done : Bool

namespace Step

/-- The start of the steps from a configuration. -/
def start (config : NodeSet) (history : HistoryStore) : Step where
  config := config
  history := history
  actions := []
  timers := []
  raised := []
  done := false

/-- The timer of a node for an event. -/
def timerKey (n : Node) (event : String) : TimerKey := ⟨n.id, event⟩

/-- The commands that cancel the timers of a node. -/
def cancels (n : Node) : List TimerCommand :=
  n.delayedEvents.map fun e => .cancel (timerKey n e.1)

/-- The commands that arm the timers of a node. -/
def arms (n : Node) : List TimerCommand :=
  n.delayedEvents.map fun e => .arm (timerKey n e.1) e.2

/-- Records for the history children of a node. -/
def recordExit (t : Tree) (config : NodeSet) (history : HistoryStore) (i : Nat) :
    HistoryStore :=
  history.record t i config

/-- Exits a node. -/
def exitNode (t : Tree) (s : Step) (i : Nat) : Step :=
  { s with
    actions := s.actions ++ (t.node i).exit
    timers := s.timers ++ cancels (t.node i)
    config := s.config.erase i }

/-- Exits nodes, the innermost first, after recording what was active. -/
def exitAll (t : Tree) (s : Step) (exits : NodeSet) : Step :=
  exits.toList.reverse.foldl (exitNode t)
    { s with history := exits.toList.foldl (recordExit t s.config) s.history }

/-- Enters a node. -/
def enterNode (t : Tree) (s : Step) (i : Nat) : Step :=
  { s with
    actions := s.actions ++ (t.node i).entry
    timers := s.timers ++ arms (t.node i)
    config := s.config.insert i }

/-- Whether a parallel node is complete: each region is a final node, a complete parallel
node, or has a final child, and those final nodes are active. -/
def allRegionsFinal (t : Tree) (config : NodeSet) (parallel : Nat) : Bool :=
  (t.regions parallel).attach.all fun r =>
    match t.kind r.1 with
    | .final => decide (r.1 ∈ config)
    | .parallel => allRegionsFinal t config r.1
    | _ => (t.regions r.1).any fun c => t.kind c == .final && decide (c ∈ config)
termination_by t.size - parallel
decreasing_by
  have := Tree.lt_of_child (Tree.children_of_mem_regions r.2).1
  omega

/-- Raises the completion event of a node, unless it waits already; the root ends the
machine. -/
def complete (t : Tree) (s : Step) (i : Nat) : Step :=
  let name := Event.doneName (t.node i).id
  { s with
    raised := if name ∈ s.raised then s.raised else s.raised ++ [name]
    done := s.done || i == Tree.root }

/-- Completes a parallel node if all its regions are final. -/
def completeParallel (t : Tree) (s : Step) (i : Nat) : Step :=
  if allRegionsFinal t s.config i then complete t s i else s

/-- Completes what a final node that has been entered completes. -/
def completeAbove (t : Tree) (s : Step) (final : Nat) : Step :=
  match t.parent final with
  | none => s
  | some parent =>
    if t.kind parent = .parallel then completeParallel t s parent
    else
      let s := complete t s parent
      match t.parent parent with
      | none => s
      | some above => if t.kind above = .parallel then completeParallel t s above else s

/-- Enters the nodes of an entry set that are not active, the outermost first, and
completes what the final nodes among them complete. -/
def enterAll (t : Tree) (s : Step) (entry : NodeSet) : Step :=
  let entered := entry.filter fun i => decide (i ∉ s.config)
  let s := entered.toList.foldl (enterNode t) s
  (entered.toList.filter fun i => t.kind i == .final).foldl (completeAbove t) s

/-- The target of a candidate with its domain; nothing for one without a target. -/
def targetAndDomain (t : Tree) (c : Candidate) : Except Error (Option (Nat × Nat)) :=
  match c.target with
  | none => .ok none
  | some label => do
    let target ← t.targetOf c label
    return some (target, t.domain c target)

/-- Takes transitions that do not conflict. -/
def microstep (t : Tree) (s : Step) (selected : List Candidate) : Except Error Step := do
  let targets := (← selected.mapM (targetAndDomain t)).filterMap id
  let exits := targets.foldl (fun acc td => acc.union (t.activeBelow s.config td.2))
    SortedSet.empty
  let s := exitAll t s exits
  let s := { s with actions := s.actions ++ selected.flatMap Candidate.actions }
  let entry := targets.foldl (Entry.transition t s.history s.config) SortedSet.empty
  return enterAll t s entry

end Step

end Statechart
