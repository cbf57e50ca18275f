/-
Markers over a graph.

Each operation owns one or two kinds of markers and sets exactly where they stand; it
leaves the other kinds alone.  What it changed is given as a delta, so that only that
has to be drawn again.  An id without markers is not kept.

Two of the operations look for what holds a box.  They never end where the way up from it does
not, and `syncActive?` and `syncPreview?` have no answer then.  On the graph of a tree every way
up ends (`endsFrom_ofTree` in `Statechart.Proofs.View.Nesting`), so that `syncActive` and
`syncPreview` may be used there.
-/
import Statechart.Order.SortedMap
import Statechart.Order.SortedSet
import Statechart.View.Graph

namespace Statechart.View

/-- A marker on a box or an edge. -/
inductive Marker
  /-- The box is active. -/
  | active
  /-- The box would be active after the previewed event. -/
  | preview
  /-- The edge would be taken by the previewed event. -/
  | highlight
  /-- The event of the edge is not answered now. -/
  | disabled
deriving DecidableEq

namespace Marker

/-- The place of a marker among those on one id. -/
def rank : Marker → Nat
  | .active => 0
  | .preview => 1
  | .highlight => 2
  | .disabled => 3

/-- The name of a marker. -/
def name : Marker → String
  | .active => "active"
  | .preview => "preview"
  | .highlight => "highlight"
  | .disabled => "disabled"

instance : Ord Marker := ⟨compareOn rank⟩

instance : Std.TransOrd Marker := inferInstanceAs (Std.TransCmp (compareOn rank))

instance : Std.LawfulEqOrd Marker where
  compare_self := Std.ReflCmp.compare_self
  eq_of_compare := by
    intro a b h
    cases a <;> cases b <;> first | rfl | exact absurd h (by decide)

end Marker

/-- The markers on one id. -/
abbrev MarkerSet := SortedSet Marker

/-- The markers that an operation added and removed, with their ids. -/
structure MarkerDelta where
  added : List (String × Marker)
  removed : List (String × Marker)
deriving DecidableEq

namespace MarkerDelta

/-- The changes of two operations, one after the other. -/
def merge (a b : MarkerDelta) : MarkerDelta :=
  ⟨a.added ++ b.added, a.removed ++ b.removed⟩

/-- The number of changes. -/
def size (d : MarkerDelta) : Nat :=
  d.added.length + d.removed.length

/-- Whether nothing changed. -/
def isEmpty (d : MarkerDelta) : Bool :=
  d.added.isEmpty && d.removed.isEmpty

end MarkerDelta

/-- The markers by id. -/
abbrev Markers := SortedMap String MarkerSet

namespace Markers

/-- The markers on an id. -/
def markersAt (m : Markers) (id : String) : MarkerSet :=
  (m.get? id).getD SortedSet.empty

/-- The ids that carry a marker and should not. -/
def surplus (m : Markers) (marker : Marker) (wanted : SortedSet String) : List String :=
  (m.entries.filter fun e => decide (marker ∈ e.2) && decide (e.1 ∉ wanted)).map Prod.fst

/-- The ids that should carry a marker and do not. -/
def missing (m : Markers) (marker : Marker) (wanted : SortedSet String) : List String :=
  wanted.toList.filter fun id => decide (marker ∉ m.markersAt id)

/-- Takes a marker from an id, and the id with its last marker. -/
def unmark (marker : Marker) (m : Markers) (id : String) : Markers :=
  let rest := (m.markersAt id).erase marker
  if rest.isEmpty then m.erase id else m.insert id rest

/-- Puts a marker on an id. -/
def mark (marker : Marker) (m : Markers) (id : String) : Markers :=
  m.insert id ((m.markersAt id).insert marker)

/-- Makes `wanted` the ids that carry a marker. -/
def assign (m : Markers) (marker : Marker) (wanted : SortedSet String) :
    Markers × MarkerDelta :=
  let removed := m.surplus marker wanted
  let added := m.missing marker wanted
  (added.foldl (mark marker) (removed.foldl (unmark marker) m),
    ⟨added.map (·, marker), removed.map (·, marker)⟩)

end Markers

/-- A graph with the markers over it. -/
structure Overlay where
  graph : Graph
  markers : Markers

namespace Overlay

/-- A graph without markers. -/
def ofGraph (g : Graph) : Overlay := ⟨g, SortedMap.empty⟩

/-- Whether an id carries a marker. -/
def has (o : Overlay) (id : String) (marker : Marker) : Bool :=
  decide (marker ∈ o.markers.markersAt id)

/-- The ids that carry a marker. -/
def marked (o : Overlay) (marker : Marker) : List String :=
  (o.markers.entries.filter fun e => decide (marker ∈ e.2)).map Prod.fst

/-- Adds an id, if it is known, and the boxes that hold it.  This never ends if the way up from
it does not. -/
def addReached? (o : Overlay) (reached : SortedSet String) (id : String) :
    Option (SortedSet String) :=
  match o.graph.box? id with
  | none => some reached
  | some _ => (o.graph.ancestors? id).map fun held => reached.insertMany (id :: held.map Box.id)

/-- The known ids among those given, with the boxes that hold them. -/
def expand? (o : Overlay) (ids : List String) : Option (SortedSet String) :=
  ids.foldlM o.addReached? SortedSet.empty

/-- Makes `wanted` the ids that carry a marker. -/
def assign (o : Overlay) (marker : Marker) (wanted : SortedSet String) :
    Overlay × MarkerDelta :=
  let (markers, delta) := o.markers.assign marker wanted
  ({ o with markers }, delta)

/-- Makes two sets of ids those that carry two markers. -/
def assignBoth (o : Overlay) (first : Marker) (wantedFirst : SortedSet String)
    (second : Marker) (wantedSecond : SortedSet String) : Overlay × MarkerDelta :=
  let (o, delta) := o.assign first wantedFirst
  let (o, delta') := o.assign second wantedSecond
  (o, delta.merge delta')

/-- Marks the active leaves and what holds them. -/
def syncActive? (o : Overlay) (leaves : List String) : Option (Overlay × MarkerDelta) := do
  let reached ← o.expand? leaves
  return o.assign .active reached

/-- The edges for an event from active boxes into a set of boxes. -/
def highlighted (o : Overlay) (event : String) (reached : SortedSet String) :
    SortedSet String :=
  .ofList ((o.graph.transitionEdges.filter fun e =>
    e.event == some event && o.has e.source .active && decide (e.target ∈ reached)).map Edge.id)

/-- Marks what an event would make active, and the edges that lead there. -/
def syncPreview? (o : Overlay) (event : String) (leaves : List String) :
    Option (Overlay × MarkerDelta) := do
  let reached ← o.expand? leaves
  return o.assignBoth .preview reached .highlight (o.highlighted event reached)

/-- Takes away the marks of a preview. -/
def clearPreview (o : Overlay) : Overlay × MarkerDelta :=
  o.assignBoth .preview SortedSet.empty .highlight SortedSet.empty

/-- The edges whose event is not among those given. -/
def unanswered (o : Overlay) (events : List String) : SortedSet String :=
  .ofList ((o.graph.transitionEdges.filter fun e =>
    match e.event with
    | some event => !events.contains event
    | none => false).map Edge.id)

/-- Marks the edges whose event is not answered. -/
def syncEnabled (o : Overlay) (events : List String) : Overlay × MarkerDelta :=
  o.assign .disabled (o.unanswered events)

/-- What an operation comes to that is known to end, as it does on the graph of a tree. -/
def ended (o : Overlay) (result : Option (Overlay × MarkerDelta)) : Overlay × MarkerDelta :=
  result.getD (o, ⟨[], []⟩)

/-- Marks the active leaves and what holds them, in a graph without a circle. -/
def syncActive (o : Overlay) (leaves : List String) : Overlay × MarkerDelta :=
  o.ended (o.syncActive? leaves)

/-- Marks what an event would make active, and the edges that lead there, in a graph without a
circle. -/
def syncPreview (o : Overlay) (event : String) (leaves : List String) :
    Overlay × MarkerDelta :=
  o.ended (o.syncPreview? event leaves)

/-- Puts another graph in place, without markers. -/
def setGraph (_ : Overlay) (g : Graph) : Overlay := ofGraph g

end Overlay

end Statechart.View
