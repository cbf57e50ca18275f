/-
Boolean expressions over the context and the event.

A field that is not there reads as null, and so does a field of something that is
no object.  Two numbers are equal when they differ by less than `tolerance`; values
of different kinds are never equal, and only numbers are compared in size.
-/
import Statechart.Json.Basic
import Statechart.Text.Split

namespace Statechart

/-- Where a field is looked up. -/
inductive FieldSource
  | context
  | event
deriving DecidableEq

/-- A reference to a field by a dotted path. -/
structure Field where
  source : FieldSource
  path : String
deriving DecidableEq

/-- A value written in an expression. -/
inductive Literal
  | bool (value : Bool)
  | null
  | string (value : String)
  | number (value : Float)

/-- A comparison of size. -/
inductive Comparison
  | greater
  | greaterOrEqual
  | less
  | lessOrEqual
deriving DecidableEq

/-- A guard expression. -/
inductive GuardExpr
  /-- The field holds something other than null, false, zero or an empty value. -/
  | truthy (field : Field)
  | equal (field : Field) (value : Literal)
  | notEqual (field : Field) (value : Literal)
  | compare (field : Field) (comparison : Comparison) (bound : Float)
  | and (left right : GuardExpr)
  | or (left right : GuardExpr)
  | not (inner : GuardExpr)

namespace Field

/-- Follows names into a value. -/
def follow : List String → Json → Json
  | [], j => j
  | name :: rest, j =>
    match j with
    | .object members => follow rest ((Json.member? members name).getD .null)
    | _ => .null

/-- The value of a field. -/
def resolve (f : Field) (context payload : Json) : Json :=
  follow (Text.path f.path)
    (match f.source with
     | .context => context
     | .event => payload)

/-- The field as it is written. -/
def display (f : Field) : String :=
  (match f.source with
   | .context => "ctx."
   | .event => "event.") ++ f.path

end Field

/-- How far apart equal numbers may be: the distance from one to the next double. -/
def tolerance : Float := Float.ofScientific 2220446049250313 true 31

/-- Whether two numbers are equal. -/
def nearlyEqual (a b : Float) : Bool :=
  (a - b).abs < tolerance

/-- Whether a value is equal to a written one. -/
def Literal.equals : Literal → Json → Bool
  | .bool b, .bool c => b == c
  | .null, .null => true
  | .string s, .string t => s == t
  | .number x, .number n => nearlyEqual n.toFloat x
  | _, _ => false

/-- Whether `left` stands in the relation to `right`. -/
def Comparison.holds (c : Comparison) (left right : Float) : Bool :=
  match c with
  | .greater => right < left
  | .greaterOrEqual => right ≤ left
  | .less => left < right
  | .lessOrEqual => left ≤ right

/-- Whether a value counts as true. -/
def Json.isTruthy : Json → Bool
  | .null => false
  | .bool b => b
  | .number n => n.toFloat != 0.0
  | .string s => !s.isEmpty
  | .array items => !items.isEmpty
  | .object members => !members.isEmpty

/-- The truth of an expression over a context and the payload of an event. -/
def GuardExpr.evaluate (context payload : Json) : GuardExpr → Bool
  | .truthy f => (f.resolve context payload).isTruthy
  | .equal f v => v.equals (f.resolve context payload)
  | .notEqual f v => !v.equals (f.resolve context payload)
  | .compare f c bound =>
    match f.resolve context payload with
    | .number n => c.holds n.toFloat bound
    | _ => false
  | .and l r => l.evaluate context payload && r.evaluate context payload
  | .or l r => l.evaluate context payload || r.evaluate context payload
  | .not e => !e.evaluate context payload

end Statechart
