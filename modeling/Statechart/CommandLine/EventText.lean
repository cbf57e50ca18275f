/-
Events as they are typed.

On the command line an event is a name, or a name and a payload with an equals sign
between them.  In a conversation white space stands between them instead.
-/
import Statechart.Event
import Statechart.Json.Flaw
import Statechart.Text.Blank

namespace Statechart.Event

/-- The event of an argument: a name up to the first equals sign, and what follows it as
the payload. -/
def ofArgument (text : String) : Except Json.NoValue Event :=
  match Text.cut? (· == '=') text.toList with
  | none => .ok (.named text)
  | some (name, payload) => do
    let payload ← Json.valueOf (String.ofList payload)
    return ⟨String.ofList name, payload⟩

/-- The event of what is typed after a command: a name up to white space, and what
follows as the payload. -/
def ofTyped (text : String) : Except Json.NoValue Event :=
  match Text.cut? Text.isBlank text.toList with
  | none => ofArgument text
  | some (name, payload) =>
    ofArgument (String.ofList name ++ "=" ++ Text.trim (String.ofList payload))

end Statechart.Event
