/-
Which nodes a transition enters.

A node is entered with its default descent: a compound node with its initial child, a
parallel node with every region that nothing has been entered in yet.  A history node
stands for what it remembers, or for the default descent of its parent.  The nodes
between the target and the domain are entered too, with the regions beside them that
are neither entered nor active.  Entry sets only grow.

Nodes that are remembered are entered with `withDefaults`, as initial children and regions are,
and not asked whether they are history nodes, which would stand for what they remember in their
turn.  None of them is: in a tree that loads no initial child and no region is a history node,
and a record that is made on it holds none.  The rules that ask this of every node are `node?`
and its companions in `Statechart.Proofs.Entry.Depth`, and by `ends_of_build` they come to the
same there.
-/
import Statechart.History

namespace Statechart.Entry

/-- Whether a node, or one below it, is in a set. -/
def covered (t : Tree) (region : Nat) (set : NodeSet) : Bool :=
  set.toList.any fun n => n == region || t.isDescendant n region

/-- Enters what a node enters below itself. -/
def defaults (t : Tree) (node : Nat) (entry : NodeSet) : NodeSet :=
  match t.kind node with
  | .compound =>
    match _h : t.initialChild node with
    | some c => defaults t c (entry.insert c)
    | none => entry
  | .parallel =>
    (t.regions node).attach.foldl (fun entry r =>
      if covered t r.1 entry then entry else defaults t r.1 (entry.insert r.1)) entry
  | _ => entry
termination_by t.size - node
decreasing_by
  · have := Tree.lt_of_child (Tree.children_of_initialChild _h)
    omega
  · have := Tree.lt_of_child (Tree.children_of_mem_regions r.2).1
    omega

/-- Enters a node with its default descent. -/
def withDefaults (t : Tree) (entry : NodeSet) (node : Nat) : NodeSet :=
  defaults t node (entry.insert node)

/-- Enters a region unless something in it is entered or active. -/
def fillRegion (t : Tree) (config entry : NodeSet) (region : Nat) : NodeSet :=
  if covered t region entry || covered t region config then entry
  else withDefaults t entry region

/-- Enters a node on the way up, and the other regions of a parallel one. -/
def ancestor (t : Tree) (config entry : NodeSet) (node : Nat) : NodeSet :=
  let entry := entry.insert node
  if t.kind node = .parallel then (t.regions node).foldl (fillRegion t config) entry
  else entry

/-- Enters the nodes above `node` and below `domain`, the nearest first. -/
def ancestors (t : Tree) (config : NodeSet) (domain : Nat) (entry : NodeSet) (node : Nat) :
    NodeSet :=
  ((t.ancestors node).takeWhile fun a => a != domain).foldl (ancestor t config) entry

/-- Enters the nodes that a history node remembers below its parent: all of them first,
then the nodes above them. -/
def restored (t : Tree) (config : NodeSet) (parent : Nat) (nodes : List Nat)
    (entry : NodeSet) : NodeSet :=
  nodes.foldl (ancestors t config parent) (nodes.foldl (withDefaults t) entry)

/-- Enters a target. -/
def target (t : Tree) (history : HistoryStore) (config entry : NodeSet) (node : Nat) :
    NodeSet :=
  if t.isHistory node then
    match t.parent node with
    | none => entry
    | some parent =>
      match history.get? node with
      | some ⟨_, n :: rest⟩ => restored t config parent (n :: rest) entry
      | _ => defaults t parent entry
  else withDefaults t entry node

/-- Enters a target and the nodes above it below its domain. -/
def transition (t : Tree) (history : HistoryStore) (config entry : NodeSet)
    (targetAndDomain : Nat × Nat) : NodeSet :=
  ancestors t config targetAndDomain.2 (target t history config entry targetAndDomain.1)
    targetAndDomain.1

end Statechart.Entry
