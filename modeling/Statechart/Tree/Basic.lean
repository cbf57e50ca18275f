/-
The tree of a machine.

All nodes stand in one array, in document order, each before everything below it.
So a node is known by its number, the numbers below a node are larger than its own,
and a walk over a set of numbers is a walk in document order.  What the walks up and
down the tree need in order to end is part of the type: parents have smaller
numbers and children larger ones.
-/
import Statechart.Guard.Basic
import Statechart.Order.SortedSet
import Statechart.Tree.Kind

namespace Statechart

/-- A set of nodes, in document order. -/
abbrev NodeSet := SortedSet Nat

/-- One way in which a node answers an event. -/
structure Candidate where
  event : String
  source : Nat
  /-- The target as it is written; without one only the actions run. -/
  target : Option String
  guard : Option Guard
  actions : List Action
  /-- The delay in milliseconds after which the event comes by itself. -/
  delay : Option Nat
  /-- The place among the candidates of its node for its event. -/
  index : Nat

/-- Whether two candidates are the same one of the tree. -/
def Candidate.same (a b : Candidate) : Bool :=
  a.source == b.source && a.event == b.event && a.index == b.index

/-- The candidates of a node for one event. -/
structure Handler where
  event : String
  candidates : List Candidate

/-- A node of a tree. -/
structure Node where
  index : Nat
  /-- The keys from the root down to the node, joined by dots. -/
  id : String
  key : String
  /-- The id that the definition gives to the node; the root has none besides its own. -/
  givenId : Option String
  kind : NodeKind
  parent : Option Nat
  children : List Nat
  /-- The key of the child that a compound node enters by itself. -/
  initial : Option String
  entry : List Action
  exit : List Action
  depth : Nat
  handlers : List Handler

namespace Node

/-- What is read at a number that no node has: a node without anything. -/
def absent : Node where
  index := 0
  id := ""
  key := ""
  givenId := none
  kind := .atomic
  parent := none
  children := []
  initial := none
  entry := []
  exit := []
  depth := 0
  handlers := []

/-- The candidates for an event, in order. -/
def candidates (n : Node) (event : String) : List Candidate :=
  match n.handlers.find? (fun h => h.event == event) with
  | some h => h.candidates
  | none => []

/-- The events that the node answers, in order. -/
def events (n : Node) : List String :=
  n.handlers.map Handler.event

/-- The events that come by themselves while the node is active, with their delays. -/
def delayedEvents (n : Node) : List (String × Nat) :=
  n.handlers.filterMap fun h =>
    match h.candidates with
    | c :: _ => c.delay.map fun delay => (h.event, delay)
    | [] => none

end Node

/-- The nodes of a machine in document order. -/
structure Tree where
  nodes : Array Node
  /-- There is a root. -/
  nonempty : 0 < nodes.size
  /-- A node knows its number. -/
  index_eq : ∀ (i : Nat) (n : Node), nodes[i]? = some n → n.index = i
  /-- A parent stands before its children. -/
  parent_lt : ∀ n : Node, n ∈ nodes → ∀ p, n.parent = some p → p < n.index
  /-- A child stands after its parent, in the array. -/
  child_range : ∀ n : Node, n ∈ nodes → ∀ c ∈ n.children, n.index < c ∧ c < nodes.size

namespace Tree

/-- The number of the root. -/
def root : Nat := 0

/-- The number of nodes. -/
def size (t : Tree) : Nat := t.nodes.size

/-- The node with a number, if there is one. -/
def node? (t : Tree) (i : Nat) : Option Node := t.nodes[i]?

/-- The node with a number. -/
def node (t : Tree) (i : Nat) : Node := (t.node? i).getD Node.absent

/-- The kind of a node. -/
def kind (t : Tree) (i : Nat) : NodeKind := (t.node i).kind

/-- The parent of a node; the root has none. -/
def parent (t : Tree) (i : Nat) : Option Nat := (t.node i).parent

/-- The children of a node, in document order. -/
def children (t : Tree) (i : Nat) : List Nat := (t.node i).children

/-- Whether a configuration may end in a node. -/
def isLeaf (t : Tree) (i : Nat) : Bool := (t.kind i).isLeaf

/-- Whether a node is a history node. -/
def isHistory (t : Tree) (i : Nat) : Bool := (t.kind i).isHistory

/-- The children that may be active: all but the history nodes. -/
def regions (t : Tree) (i : Nat) : List Nat :=
  (t.children i).filter fun c => !t.isHistory c

/-- The children that are history nodes. -/
def historyChildren (t : Tree) (i : Nat) : List Nat :=
  (t.children i).filter t.isHistory

/-- The child with a key. -/
def child (t : Tree) (i : Nat) (key : String) : Option Nat :=
  (t.children i).find? fun c => (t.node c).key == key

/-- The child that a compound node enters by itself. -/
def initialChild (t : Tree) (i : Nat) : Option Nat :=
  match (t.node i).initial with
  | some key => t.child i key
  | none => none

/-- The node with an id, be it the dotted one or the one that it was given. -/
def lookup (t : Tree) (id : String) : Option Nat :=
  (t.nodes.toList.find? fun n => n.id == id || n.givenId == some id).map Node.index

theorem node_cases (t : Tree) (i : Nat) :
    (t.node i = Node.absent ∧ t.size ≤ i) ∨
      (t.node i ∈ t.nodes ∧ (t.node i).index = i ∧ i < t.size) := by
  unfold node node? size
  by_cases h : i < t.nodes.size
  · right
    rw [Array.getElem?_eq_getElem h]
    exact ⟨Array.getElem_mem h, t.index_eq i _ (Array.getElem?_eq_getElem h), h⟩
  · left
    rw [Array.getElem?_eq_none (Nat.le_of_not_lt h)]
    exact ⟨rfl, Nat.le_of_not_lt h⟩

/-- A parent has a smaller number. -/
theorem lt_of_parent {t : Tree} {i p : Nat} (h : t.parent i = some p) : p < i := by
  unfold parent at h
  rcases t.node_cases i with ⟨hnode, _⟩ | ⟨hmem, hindex, _⟩
  · rw [hnode] at h
    exact absurd h (by simp [Node.absent])
  · have := t.parent_lt _ hmem p h
    rwa [hindex] at this

/-- A child has a larger number, and is in the tree. -/
theorem lt_of_child {t : Tree} {i c : Nat} (h : c ∈ t.children i) : i < c ∧ c < t.size := by
  unfold children at h
  rcases t.node_cases i with ⟨hnode, _⟩ | ⟨hmem, hindex, _⟩
  · rw [hnode] at h
    exact absurd h List.not_mem_nil
  · have := t.child_range _ hmem c h
    rwa [hindex] at this

/-- The nodes above a node, the nearest first. -/
def ancestors (t : Tree) (i : Nat) : List Nat :=
  match _h : t.parent i with
  | none => []
  | some p => p :: ancestors t p
termination_by i
decreasing_by exact lt_of_parent _h

/-- Whether a node lies below another. -/
def isDescendant (t : Tree) (node ancestor : Nat) : Bool :=
  ancestor < node && (t.ancestors node).contains ancestor

/-- Walks down from a node along keys. -/
def descend (t : Tree) (i : Nat) : List String → Option Nat
  | [] => some i
  | key :: rest =>
    match t.child i key with
    | some c => t.descend c rest
    | none => none

/-- The node that a target label names, written at `source`: `#id` is an id, `.a.b` leads
down from the source, and `a.b` leads down from its parent, or from the root at the root. -/
def resolveTarget (t : Tree) (source : Nat) (label : String) : Option Nat :=
  match label.toList with
  | '#' :: id => t.lookup (String.ofList id)
  | '.' :: path => t.descend source (Text.path (String.ofList path))
  | _ => t.descend ((t.parent source).getD source) (Text.path label)

/-- The number of the root is that of a node. -/
theorem root_lt_size (t : Tree) : root < t.size := t.nonempty

theorem ancestors_of_parent {t : Tree} {i p : Nat} (h : t.parent i = some p) :
    t.ancestors i = p :: t.ancestors p := by
  rw [ancestors]
  split
  · next hn => rw [h] at hn; cases hn
  · next q hq =>
    rw [h] at hq
    cases hq
    rfl

theorem ancestors_of_no_parent {t : Tree} {i : Nat} (h : t.parent i = none) :
    t.ancestors i = [] := by
  rw [ancestors]
  split
  · rfl
  · next q hq => rw [h] at hq; cases hq

/-- A region is a child. -/
theorem children_of_mem_regions {t : Tree} {i c : Nat} (h : c ∈ t.regions i) :
    c ∈ t.children i ∧ t.isHistory c = false := by
  simpa [regions] using h

/-- The child that is entered by itself is a child. -/
theorem children_of_initialChild {t : Tree} {i c : Nat} (h : t.initialChild i = some c) :
    c ∈ t.children i := by
  unfold initialChild at h
  split at h
  · exact List.mem_of_find?_eq_some h
  · cases h

end Tree

end Statechart
