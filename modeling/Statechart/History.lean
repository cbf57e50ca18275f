/-
What history nodes remember.

When a node with history children is exited, each of them records what was active:
a shallow one the children of the node, a deep one the leaves below it.
-/
import Statechart.Order.SortedMap
import Statechart.Tree.Basic

namespace Statechart

/-- What a history node remembers. -/
structure HistoryRecord where
  kind : HistoryKind
  nodes : List Nat
deriving DecidableEq

/-- The records of history nodes, by node. -/
abbrev HistoryStore := SortedMap Nat HistoryRecord

namespace HistoryStore

/-- What a history node of a kind remembers of its parent in a configuration. -/
def remembered (t : Tree) (kind : HistoryKind) (parent : Nat) (config : NodeSet) : List Nat :=
  match kind with
  | .shallow => (t.regions parent).filter fun c => decide (c ∈ config)
  | .deep => config.toList.filter fun n => t.isLeaf n && t.isDescendant n parent

/-- Records for one history node. -/
def recordAt (t : Tree) (parent : Nat) (config : NodeSet) (store : HistoryStore) (i : Nat) :
    HistoryStore :=
  match t.kind i with
  | .history kind => store.insert i ⟨kind, remembered t kind parent config⟩
  | _ => store

/-- Records for every history child of a node that is about to be exited. -/
def record (t : Tree) (store : HistoryStore) (parent : Nat) (config : NodeSet) : HistoryStore :=
  (t.historyChildren parent).foldl (recordAt t parent config) store

end HistoryStore

end Statechart
