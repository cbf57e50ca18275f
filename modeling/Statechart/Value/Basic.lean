/-
State values: the nested form in which a configuration is stored and shown.

A text names the only active child of its place, a leaf; a mapping names active
children with what is active below each; the empty mapping is a leaf among regions.
-/
import Statechart.Json.Printer
import Statechart.Order.SortedSet
import Statechart.Text.Blank
import Statechart.Text.Split

namespace Statechart

/-- A nested state value.  Entries are listed in the order of their keys. -/
inductive StateValue
  | leaf (key : String)
  | branch (entries : List (String × StateValue))
deriving Inhabited

namespace StateValue

/-- Writes an entry at the place of its key, replacing what was there. -/
def putEntry (key : String) (value : StateValue) :
    List (String × StateValue) → List (String × StateValue)
  | [] => [(key, value)]
  | (k, v) :: rest =>
    match compare key k with
    | .lt => (key, value) :: (k, v) :: rest
    | .eq => (key, value) :: rest
    | .gt => (k, v) :: putEntry key value rest

/-- The mapping of some entries; of two with one key the later stays. -/
def ofEntries (entries : List (String × StateValue)) : StateValue :=
  .branch (entries.foldl (fun acc e => putEntry e.1 e.2 acc) [])

/-- An id below `base`: the two joined by a dot, or the key alone below nothing. -/
def join (base key : String) : String :=
  if base.isEmpty then key else base ++ "." ++ key

mutual

/-- The ids of the active leaves below `base`, as they are met. -/
def leafIds (base : String) : StateValue → List String
  | .leaf key => [join base key]
  | .branch [] => [base]
  | .branch (entry :: rest) => leafIdsOf base (entry :: rest)

/-- The ids of the active leaves of some entries below `base`. -/
def leafIdsOf (base : String) : List (String × StateValue) → List String
  | [] => []
  | (key, value) :: rest => leafIds (join base key) value ++ leafIdsOf base rest

end

/-- The ids of the active leaves below `base`. -/
def activeIds (v : StateValue) (base : String) : SortedSet String :=
  .ofList (v.leafIds base)

mutual

/-- The value as JSON. -/
def toJson : StateValue → Json
  | .leaf key => .string key
  | .branch entries => .object (toJsonEntries entries)

/-- The entries of a mapping as members. -/
def toJsonEntries : List (String × StateValue) → List (String × Json)
  | [] => []
  | (key, value) :: rest => (key, value.toJson) :: toJsonEntries rest

end

mutual

/-- The state value that a JSON value describes: a text, or an object of such values. -/
def ofJson? : Json → Option StateValue
  | .string key => some (.leaf key)
  | .object members => (ofJsonMembers? members).map ofEntries
  | _ => none

/-- The entries that the members of an object describe. -/
def ofJsonMembers? : List (String × Json) → Option (List (String × StateValue))
  | [] => some []
  | (key, value) :: rest => do
    let value ← ofJson? value
    let rest ← ofJsonMembers? rest
    return (key, value) :: rest

end

/-- The value as it is shown: a leaf bare, a mapping as JSON text. -/
def display : StateValue → String
  | .leaf key => key
  | v => v.toJson.compact

/-- Whether a dotted path is active: it is the id of an active leaf, or a leaf lies
below it.  Dots at the ends of the path do not count. -/
def contains (v : StateValue) (path : String) : Bool :=
  let path := Text.trimBoth (· == '.') path.toList
  (v.activeIds "").toList.any fun id =>
    match Text.afterStart? path id.toList with
    | some [] => true
    | some (c :: _) => c == '.'
    | none => false

end StateValue

end Statechart
