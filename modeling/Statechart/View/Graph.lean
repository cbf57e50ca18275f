/-
The graph of a tree: what is drawn of it.

Every node is a box.  A compound node, and a parallel node with regions, holds a dot
with edges to what it enters by itself.  Every candidate with a target is an edge.
Boxes and edges stand in document order.  The id of an edge that would repeat an
earlier one takes the place of its candidate as well.
-/
import Statechart.Tree.Basic
import Statechart.View.Label

namespace Statechart.View

/-- What a box stands for. -/
inductive Role
  | state (kind : NodeKind)
  /-- The dot that points to what its parent enters by itself. -/
  | initialMarker
deriving DecidableEq

/-- A box. -/
structure Box where
  id : String
  key : String
  parent : Option String
  role : Role
  depth : Nat
  entry : List Action
  exit : List Action

/-- What an edge stands for. -/
inductive EdgeKind
  | transition
  | initial
deriving DecidableEq

/-- An edge between boxes. -/
structure Edge where
  id : String
  source : String
  target : String
  kind : EdgeKind
  event : Option String
  guard : Option String
  actions : List Action
  /-- The place among the candidates of its source for its event. -/
  order : Nat
  label : String

/-- Boxes and the edges between them. -/
structure Graph where
  boxes : List Box
  edges : List Edge

namespace Graph

/-- The graph without boxes. -/
def empty : Graph := ⟨[], []⟩

/-- What a node enters by itself. -/
def pointedAt (t : Tree) (n : Node) : List Nat :=
  match n.kind with
  | .compound => (t.initialChild n.index).toList
  | .parallel => t.regions n.index
  | _ => []

/-- The box of a node. -/
def nodeBox (t : Tree) (n : Node) : Box where
  id := n.id
  key := n.key
  parent := n.parent.map fun p => (t.node p).id
  role := .state n.kind
  depth := n.depth
  entry := n.entry
  exit := n.exit

/-- The dot in a node. -/
def markerBox (n : Node) : Box where
  id := markerId n.id
  key := "initial"
  parent := some n.id
  role := .initialMarker
  depth := n.depth + 1
  entry := []
  exit := []

/-- The boxes of a node: its own, and the dot in it if it has one. -/
def boxesOf (t : Tree) (n : Node) : List Box :=
  nodeBox t n :: (if (pointedAt t n).isEmpty then [] else [markerBox n])

/-- The edge from the dot in a node to one of the nodes it points to. -/
def initialEdge (t : Tree) (n : Node) (order child : Nat) : Edge where
  id := markerId n.id ++ ":" ++ (t.node child).id
  source := markerId n.id
  target := (t.node child).id
  kind := .initial
  event := none
  guard := none
  actions := []
  order := order
  label := ""

/-- The edge of a candidate with a target. -/
def transitionEdge? (t : Tree) (c : Candidate) : Option Edge := do
  let label ← c.target
  let target ← t.resolveTarget c.source label
  let source := (t.node c.source).id
  let target := (t.node target).id
  let guard := c.guard.map Guard.label
  return {
    id := source ++ ":" ++ target ++ "::" ++ c.event
    source, target, guard
    kind := .transition
    event := some c.event
    actions := c.actions
    order := c.index
    label := edgeLabel c.event guard c.actions }

/-- The edges of a node, before their ids are told apart. -/
def edgesOf (t : Tree) (n : Node) : List Edge :=
  (pointedAt t n).mapIdx (initialEdge t n)
    ++ (n.handlers.flatMap Handler.candidates).filterMap (transitionEdge? t)

/-- Adds an edge; an id that is taken gets the place of its candidate as well. -/
def addEdge (edges : List Edge) (e : Edge) : List Edge :=
  if edges.any fun f => f.id == e.id then
    edges ++ [{ e with id := e.id ++ "#" ++ Nat.repr e.order }]
  else edges ++ [e]

/-- The graph of a tree. -/
def ofTree (t : Tree) : Graph where
  boxes := t.nodes.toList.flatMap (boxesOf t)
  edges := (t.nodes.toList.flatMap (edgesOf t)).foldl addEdge []

/-- The box with an id, the first if there are several. -/
def box? (g : Graph) (id : String) : Option Box :=
  g.boxes.find? fun b => b.id == id

/-- The edge with an id, the first if there are several. -/
def edge? (g : Graph) (id : String) : Option Edge :=
  g.edges.find? fun e => e.id == id

/-- The box that holds a box. -/
def parentBox? (g : Graph) (b : Box) : Option Box :=
  b.parent.bind g.box?

/-- The boxes that hold a box, the nearest first, if the way up from it ends within so many
steps. -/
def holders? (g : Graph) : Nat → Box → Option (List Box)
  | 0, b => if (g.parentBox? b).isSome then none else some []
  | steps + 1, b =>
    match g.parentBox? b with
    | some p => (holders? g steps p).map (p :: ·)
    | none => some []

/-- The boxes that hold the box with an id, the nearest first.  Boxes may hold each other in a
circle, and the way up goes round for ever then: `none` is a way up that never ends.  One that
ends passes no box twice, so that as many steps as there are boxes tell the two apart. -/
def ancestors? (g : Graph) (id : String) : Option (List Box) :=
  match g.box? id with
  | some b => holders? g g.boxes.length b
  | none => some []

/-- The boxes that hold the box with an id, in a graph that is known to have no circle. -/
def ancestors (g : Graph) (id : String) : List Box :=
  (g.ancestors? id).getD []

/-- The edges of transitions. -/
def transitionEdges (g : Graph) : List Edge :=
  g.edges.filter fun e => e.kind == .transition

/-- The edges of transitions from a box. -/
def edgesFrom (g : Graph) (source : String) : List Edge :=
  g.transitionEdges.filter fun e => e.source == source

/-- The events of the transitions from a box, each once. -/
def eventsOf (g : Graph) (source : String) : List String :=
  ((g.edgesFrom source).filterMap Edge.event).foldl
    (fun seen e => if e ∈ seen then seen else seen ++ [e]) []

end Graph

/-- The kind of a node as a value. -/
def kindToJson : NodeKind → Json
  | .history kind => .object [("history", .string kind.name)]
  | kind => .string kind.name

/-- A role as a value. -/
def Role.toJson : Role → Json
  | .state kind => .object [("state", kindToJson kind)]
  | .initialMarker => .string "initial_marker"

/-- Names as a value. -/
def namesToJson (names : List String) : Json :=
  .array (names.map Json.string)

/-- A member that is left out when there are no names. -/
def namesMember (key : String) (names : List String) : List (String × Json) :=
  if names.isEmpty then [] else [(key, namesToJson names)]

/-- A member that is left out when there is no text. -/
def textMember (key : String) : Option String → List (String × Json)
  | some s => [(key, .string s)]
  | none => []

/-- A box as a value. -/
def Box.toJson (b : Box) : Json :=
  .object ([("id", .string b.id), ("key", .string b.key),
      ("parent", (b.parent.map Json.string).getD .null), ("role", b.role.toJson),
      ("depth", .ofNat b.depth)]
    ++ namesMember "entry" b.entry ++ namesMember "exit" b.exit)

/-- The name of an edge kind. -/
def EdgeKind.name : EdgeKind → String
  | .transition => "transition"
  | .initial => "initial"

/-- An edge as a value. -/
def Edge.toJson (e : Edge) : Json :=
  .object ([("id", .string e.id), ("source", .string e.source), ("target", .string e.target),
      ("kind", .string e.kind.name)]
    ++ textMember "event" e.event ++ textMember "guard" e.guard
    ++ namesMember "actions" e.actions
    ++ [("order", .ofNat e.order), ("label", .string e.label)])

/-- A graph as a value. -/
def Graph.toJson (g : Graph) : Json :=
  .object [("nodes", .array (g.boxes.map Box.toJson)), ("edges", .array (g.edges.map Edge.toJson))]

end Statechart.View
