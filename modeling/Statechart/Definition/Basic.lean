/-
Machine definitions that have been checked.

A definition is loaded from text or from a value.  Text is decoded as it stands and
then read once more as a value, which is kept; the checksum is that of the value
written without white space, so that the layout of the text does not count.
-/
import Statechart.Checksum
import Statechart.Definition.Decode
import Statechart.Json.Printer
import Statechart.Json.Reader
import Statechart.Tree.Build

namespace Statechart

/-- A machine that has been checked. -/
structure Definition where
  /-- The id of the root. -/
  name : String
  tree : Tree
  /-- The context that a machine starts with. -/
  context : Json
  /-- The value that the definition was loaded from. -/
  source : Json
  checksum : String

namespace Definition

/-- The name of a machine that is given none. -/
def defaultName : String := "machine"

/-- The name of a machine: its id, else its key. -/
def nameOf (c : StateConfig) : String :=
  (c.id.or c.key).getD defaultName

/-- The initial context, which has to be an object. -/
def contextOf (c : StateConfig) : Except DefinitionFault Json :=
  match c.context with
  | none => .ok (.object [])
  | some (.object members) => .ok (.object members)
  | some _ => .error .contextNotObject

/-- A definition from what is written and the value that it stands for. -/
def ofConfig (c : StateConfig) (source : Json) : Except Error Definition := do
  let name := nameOf c
  let context ← Draft.refuse (contextOf c)
  let tree ← Tree.build name c
  return { name, tree, context, source, checksum := Checksum.ofText source.compact }

/-- A fault of JSON as an error. -/
def readable {α : Type} : Except Json.Fault α → Except Error α
  | .ok a => .ok a
  | .error fault => .error (.json fault)

/-- The configuration that a text describes. -/
def configOfText (text : String) : Except Json.Fault StateConfig := do
  let document := Json.readDocument text
  let config ← StateConfig.ofRaw Json.wholeText document.tree
  document.finish
  return config

/-- The definition that a text describes. -/
def ofText (text : String) : Except Error Definition := do
  let config ← readable (configOfText text)
  let source ← readable (Json.parse text)
  ofConfig config source

/-- The definition that a value describes. -/
def ofJson (j : Json) : Except Error Definition := do
  let config ← readable (StateConfig.ofJson j)
  ofConfig config j

/-- The value that the definition stands for. -/
def toJson (d : Definition) : Json := d.source

/-- The elements of a list, each at its first place. -/
def firsts : List String → List String → List String
  | seen, [] => seen
  | seen, a :: rest => firsts (if a ∈ seen then seen else seen ++ [a]) rest

/-- The events that some node answers, in document order. -/
def events (d : Definition) : List String :=
  firsts [] ((d.tree.nodes.toList.flatMap Node.events).filter fun e => !e.isEmpty)

end Definition

end Statechart
