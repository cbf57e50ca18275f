/-
Which transitions an event takes.

Every active leaf looks for an enabled candidate, at itself and then at the nodes
above it, and proposes the first.  Two proposals conflict when some active node would
be exited by both; then the one whose source lies below the other's wins, and
otherwise the one that was proposed first.
-/
import Statechart.Error
import Statechart.Tree.Basic

namespace Statechart

namespace Tree

/-- The node that a transition leaves active: the nearest compound node above the source
that holds the target, or the root.  A target written from the source down, `.child`,
keeps the source itself active. -/
def domain (t : Tree) (c : Candidate) (target : Nat) : Nat :=
  let fromSource :=
    match c.target with
    | some label => label.toList.head? == some '.'
    | none => false
  if fromSource && t.isDescendant target c.source then c.source
  else
    ((t.ancestors c.source).find? fun a =>
      t.kind a == .compound && t.isDescendant target a).getD root

/-- The node that the target of a candidate names. -/
def targetOf (t : Tree) (c : Candidate) (label : String) : Except Error Nat :=
  match t.resolveTarget c.source label with
  | some i => .ok i
  | none => .error (.transition (.missingTarget label (t.node c.source).id c.event))

/-- The active nodes below a node. -/
def activeBelow (t : Tree) (config : NodeSet) (domain : Nat) : NodeSet :=
  config.filter fun n => t.isDescendant n domain

/-- The active nodes that a candidate exits: those below its domain. -/
def exitSet (t : Tree) (config : NodeSet) (c : Candidate) : Except Error NodeSet :=
  match c.target with
  | none => .ok SortedSet.empty
  | some label => do
    let target ← t.targetOf c label
    return t.activeBelow config (t.domain c target)

end Tree

/-- What guards look at: the conditions with a name, the context, and the event. -/
structure GuardScope where
  table : GuardTable
  context : Json
  event : Event

namespace Selection

/-- Whether a candidate is enabled. -/
def enabled (scope : GuardScope) (c : Candidate) : Except Error Bool :=
  match scope.table.allows c.guard scope.context scope.event with
  | .ok b => .ok b
  | .error failure => .error (.guard failure)

/-- The first enabled candidate of a list. -/
def firstEnabled (scope : GuardScope) : List Candidate → Except Error (Option Candidate)
  | [] => .ok none
  | c :: rest => do
    if ← enabled scope c then return some c else firstEnabled scope rest

/-- The candidates that a leaf looks at: its own, then those of the nodes above. -/
def candidatesFrom (t : Tree) (name : String) (leaf : Nat) : List Candidate :=
  (leaf :: t.ancestors leaf).flatMap fun n => (t.node n).candidates name

/-- Adds what a leaf proposes, unless it has been proposed. -/
def propose (t : Tree) (scope : GuardScope) (name : String) (proposed : List Candidate)
    (leaf : Nat) : Except Error (List Candidate) := do
  match ← firstEnabled scope (candidatesFrom t name leaf) with
  | none => return proposed
  | some c => return if proposed.any (Candidate.same · c) then proposed else proposed ++ [c]

/-- What the active leaves propose for an event. -/
def proposals (t : Tree) (scope : GuardScope) (name : String) (config : NodeSet) :
    Except Error (List Candidate) :=
  (config.toList.filter t.isLeaf).foldlM (propose t scope name) []

/-- Keeps a proposal, and drops what it wins over, unless something kept wins over it. -/
def keep (t : Tree) (config : NodeSet) (kept : List (Candidate × NodeSet)) (c : Candidate) :
    Except Error (List (Candidate × NodeSet)) := do
  let exits ← t.exitSet config c
  let conflicting := kept.filter fun k => !exits.disjoint k.2
  if conflicting.all fun k => t.isDescendant c.source k.1.source then
    return (kept.filter fun k => exits.disjoint k.2) ++ [(c, exits)]
  else return kept

/-- Proposals without conflicts. -/
def resolve (t : Tree) (config : NodeSet) (proposed : List Candidate) :
    Except Error (List Candidate) := do
  let kept ← proposed.foldlM (keep t config) []
  return kept.map Prod.fst

/-- The transitions that an event takes in a configuration. -/
def select (t : Tree) (scope : GuardScope) (name : String) (config : NodeSet) :
    Except Error (List Candidate) := do
  let proposed ← proposals t scope name config
  resolve t config proposed

end Selection

end Statechart
