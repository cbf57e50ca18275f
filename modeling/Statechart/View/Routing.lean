/-
Routes of edges between boxes that have been laid out.

An edge starts at the right end of its label and ends at the box it leads to.
Coordinates grow to the right and downwards.
-/
import Statechart.Decimal.Style
import Statechart.Json.Basic

namespace Statechart.View

/-- A point in the plane. -/
structure Point where
  x : Float
  y : Float

/-- A box with its place. -/
structure Rect where
  x : Float
  y : Float
  width : Float
  height : Float

namespace Rect

/-- The left side. -/
def left (r : Rect) : Float := r.x

/-- The right side. -/
def right (r : Rect) : Float := r.x + r.width

/-- The upper side. -/
def top (r : Rect) : Float := r.y

/-- The lower side. -/
def bottom (r : Rect) : Float := r.y + r.height

/-- The middle. -/
def center (r : Rect) : Point := ⟨r.x + r.width / 2.0, r.y + r.height / 2.0⟩

end Rect

/-- How far inside the right end of its label an edge starts. -/
def startInset : Float := 5.0

/-- How far before its target an edge ends. -/
def endGap : Float := 4.0

/-- How far below the boxes a detour runs. -/
def clearance : Float := 10.0

/-- The corners of an edge.  It leads to the lower left corner of the target, or straight
across if label and target are level.  A level target to the left is reached from
below, by a detour under the source. -/
def route (source label target : Rect) : List Point :=
  let startX := label.right - startInset
  let startY := label.center.y + 1.0
  let endX := target.left - endGap
  if target.top < startY && startY < target.bottom then
    if endX < startX then
      let downX := label.right - 8.0
      let upX := target.right - clearance
      [⟨downX, label.center.y + 4.0⟩, ⟨downX, source.bottom + clearance⟩,
        ⟨upX, target.bottom + clearance⟩, ⟨upX, target.bottom + endGap⟩]
    else [⟨startX, startY⟩, ⟨endX, startY⟩]
  else [⟨startX, startY⟩, ⟨endX, target.bottom⟩]

/-- The text of a coordinate. -/
def coordinate (x : Float) : String := Decimal.plain.format x

/-- A route as path data.  The first point is raised by one, onto the line of the label. -/
def svgPath : List Point → String
  | [] => ""
  | first :: rest =>
    "M" ++ coordinate first.x ++ " " ++ coordinate (first.y - 1.0)
      ++ String.join (rest.map fun p => " L " ++ coordinate p.x ++ "," ++ coordinate p.y)

/-- A curve that leaves and arrives level, as path data. -/
def bezierPath (a b : Point) : String :=
  let pair (x y : Float) := coordinate x ++ "," ++ coordinate y
  "M" ++ pair a.x a.y ++ " C" ++ pair (a.x + 100.0) a.y ++ " " ++ pair (b.x - 100.0) b.y
    ++ " " ++ pair b.x b.y

/-- The numbers of an object at some keys, or of an array of as many items. -/
def numbersOfJson? (keys : List String) (j : Json) : Option (List Float) :=
  let number? : Json → Option Float
    | .number n => some n.toFloat
    | _ => none
  match j with
  | .object members => keys.mapM fun key => Json.member? members key >>= number?
  | .array items => if items.length = keys.length then items.mapM number? else none
  | _ => none

/-- The point that a value describes. -/
def Point.ofJson? (j : Json) : Option Point :=
  match numbersOfJson? ["x", "y"] j with
  | some [x, y] => some ⟨x, y⟩
  | _ => none

/-- The box that a value describes. -/
def Rect.ofJson? (j : Json) : Option Rect :=
  match numbersOfJson? ["x", "y", "width", "height"] j with
  | some [x, y, width, height] => some ⟨x, y, width, height⟩
  | _ => none

end Statechart.View
