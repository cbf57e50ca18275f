/-
What is wrong with a text that is no machine, and where.

A text is passed over as the parts of a machine are read, from left to right.  The first
mistake counts.  One that concerns a part as a whole has its place where the array or object
around the part ends, if that follows at once.
-/
import Statechart.Definition.Decode
import Statechart.Error
import Statechart.Json.Printer
import Statechart.Json.Unread
import Statechart.Text.Quoted

namespace Statechart

open Json (Flaw FlawKind Passing)

/-! ### Mistakes -/

/-- What is wrong with a text that is no machine. -/
inductive Mistake
  /-- It is no value. -/
  | flaw (kind : FlawKind)
  /-- Something is found where something else is wanted. -/
  | wrongType (found : Json) (wanted : String)
  /-- A part is written twice. -/
  | repeatedPart (name : String)
  /-- A state has a type that there is not. -/
  | unknownType (name : String)
  /-- A part has none of its forms. -/
  | noForm (part : String)
  /-- A candidate is an array with more items than it has parts. -/
  | surplusItems (count : Nat)

namespace Mistake

/-- What a value is, in words. -/
def found : Json → String
  | .null => "null"
  | .bool b => "boolean `" ++ (Json.bool b).compact ++ "`"
  | .number (.int n) => "integer `" ++ Json.numberText (.int n) ++ "`"
  | .number x => "floating point `" ++ Json.numberText x ++ "`"
  | .string s => "string " ++ Text.quoted s
  | .array _ => "sequence"
  | .object _ => "map"

/-- The text for a mistake. -/
def message : Mistake → String
  | .flaw kind => kind.message
  | .wrongType value wanted => "invalid type: " ++ found value ++ ", expected " ++ wanted
  | .repeatedPart name => "duplicate field `" ++ name ++ "`"
  | .unknownType name =>
    "unknown variant `" ++ name
      ++ "`, expected one of `atomic`, `compound`, `parallel`, `final`, `history`"
  | .noForm part => "data did not match any variant of untagged enum " ++ part
  | .surplusItems count =>
    "invalid length " ++ Nat.repr count ++ ", expected fewer elements in array"

end Mistake

/-- A mistake, and the octets after its place. -/
structure Blame where
  mistake : Mistake
  rest : List Char
  /-- Whether the place is settled; otherwise it is where the part ends. -/
  settled : Bool

namespace Blame

/-- A flaw of a text, which has its place. -/
def ofFlaw (f : Flaw) : Blame := ⟨.flaw f.kind, f.rest, true⟩

/-- With a place if it has none: where the object around it ends. -/
def closeObject (b : Blame) : Blame :=
  if b.settled then b
  else
    match Json.afterSpace b.rest with
    | '\x7d' :: rest => ⟨b.mistake, rest, true⟩
    | rest => ⟨b.mistake, rest, true⟩

/-- With a place if it has none: where the array around it ends. -/
def closeArray (b : Blame) : Blame :=
  if b.settled then b
  else
    match Json.afterSpace b.rest with
    | ']' :: rest => ⟨b.mistake, rest, true⟩
    | ',' :: rest => ⟨b.mistake, Json.afterSpace rest, true⟩
    | rest => ⟨b.mistake, rest, true⟩

end Blame

/-- What follows something, unless there is a mistake in it. -/
abbrev Checking := Except Blame (List Char)

namespace Checking

/-- What has no flaw is passed over. -/
def sound {α : Type} (p : Except Flaw α) : Except Blame α := p.mapError Blame.ofFlaw

/-- A flaw before what follows. -/
def flawed {α : Type} (kind : FlawKind) (rest : List Char) : Except Blame α :=
  .error ⟨.flaw kind, rest, true⟩

/-- A mistake before what follows. -/
def mistaken {α : Type} (mistake : Mistake) (rest : List Char) : Except Blame α :=
  .error ⟨mistake, rest, true⟩

/-- The raw tree of the octets between two places. -/
def treeBetween (s rest : List Char) : Json.Raw :=
  let bytes := (s.take (s.length - rest.length)).map fun c => UInt8.ofNat c.toNat
  match String.fromUTF8? ⟨bytes.toArray⟩ with
  | some text => (Json.readDocument text).tree
  | none => .malformed

/-- The value of the octets between two places. -/
def valueBetween (s rest : List Char) : Json :=
  ((treeBetween s rest).value .value).toOption.getD .null

/-- The text in quotes between two places. -/
def textBetween (s rest : List Char) : String :=
  match treeBetween s rest with
  | .string (some text) => text
  | _ => ""

/-- Passes over a value. -/
def passWhole (levels : Nat) (s : List Char) : Checking :=
  sound (Json.passValue (Json.passFuel s) levels s)

/-- Something else stands where something is wanted. -/
def unwanted (wanted : String) (s : List Char) : Checking :=
  match Json.afterSpace s with
  | '[' :: rest => mistaken (.wrongType (.array []) wanted) ('[' :: rest)
  | '\x7b' :: rest => mistaken (.wrongType (.object []) wanted) ('\x7b' :: rest)
  | s => do
    let rest ← passWhole 0 s
    mistaken (.wrongType (valueBetween s rest) wanted) rest

/-- Passes over the end of `null`, of which the first letter was seen. -/
def restOfNull (s : List Char) : Checking := sound (Json.passWord ['u', 'l', 'l'] s)

/-- Passes over something that may be null. -/
def optional (check : List Char → Checking) (s : List Char) : Checking :=
  match Json.afterSpace s with
  | 'n' :: rest => restOfNull rest
  | s => check s

/-- Passes over a text after its opening quote. -/
def restOfText (s : List Char) : Checking := sound (Json.passText s.length.succ s)

/-- Enters an array or an object, if one less than `levels` may be entered. -/
def enter (levels : Nat) (rest : List Char) : Except Blame Nat :=
  if levels ≤ 1 then flawed .tooDeep rest else .ok (levels - 1)

/-! ### Parts that are read as a whole -/

/-- Passes over a value that has to satisfy a test. -/
def whole (part : String) (fits : Json.Raw → Bool) (levels : Nat) (s : List Char) : Checking := do
  let rest ← passWhole levels s
  if fits (treeBetween s rest) then return rest
  else throw ⟨.noForm part, rest, false⟩

/-- Passes over a text. -/
def text (s : List Char) : Checking :=
  match Json.afterSpace s with
  | '"' :: rest => restOfText rest
  | s => unwanted "a string" s

/-- Passes over a truth value. -/
def flag (s : List Char) : Checking :=
  match Json.afterSpace s with
  | 't' :: rest => passWhole 0 ('t' :: rest)
  | 'f' :: rest => passWhole 0 ('f' :: rest)
  | s => unwanted "a boolean" s

/-- Passes over the rest of the name of a type. -/
def restOfType (s : List Char) : Checking := do
  let rest ← restOfText s
  let name := textBetween ('"' :: s) rest
  if (StateType.ofName? name).isSome then return rest
  else mistaken (.unknownType name) rest

/-- Passes over a type: its name, or an object whose one member has that name and is
null. -/
def stateType (levels : Nat) (s : List Char) : Checking :=
  match Json.afterSpace s with
  | [] => flawed .endInValue []
  | '"' :: rest => restOfType rest
  | '\x7b' :: rest => do
    let _ ← enter levels rest
    match Json.afterSpace rest with
    | [] => flawed .endInValue []
    | '"' :: rest =>
      let s ← sound (Json.passColon (← restOfType rest))
      let s ← optional (unwanted "unit") s
      match Json.afterSpace s with
      | [] => flawed .endInObject []
      | '\x7d' :: rest => return rest
      | rest => flawed .wantedValue rest
    | _ :: rest => flawed .keyIsNoText rest
  | _ :: rest => flawed .wantedValue rest

/-! ### Transitions -/

/-- What is wrong with a part of a candidate. -/
def partMistake? (value : Json) : CandidateField → Option Mistake
  | .target =>
    match value with
    | .null => none
    | .string _ => none
    | value => some (.wrongType value "a string")
  | .guard =>
    if (orNull? GuardConfig.ofRaw? value.toRaw).isSome then none
    else some (.noForm "GuardConfig")
  | .actions => if (actionsOfSound? value.toRaw).isSome then none else some (.noForm "Raw")

/-- The name of a part of a candidate. -/
def partName : CandidateField → String
  | .target => "target"
  | .guard => "cond"
  | .actions => "actions"

/-- What is wrong with the members of a candidate after those of the parts `seen`. -/
def memberMistake? (seen : List CandidateField) : List (String × Json) → Option Mistake
  | [] => none
  | (key, value) :: rest =>
    match CandidateField.ofKey? key with
    | none => memberMistake? seen rest
    | some part =>
      if part ∈ seen then some (.repeatedPart (partName part))
      else (partMistake? value part).or (memberMistake? (part :: seen) rest)

/-- What is wrong with the items of a candidate, which are its parts in order. -/
def itemMistake? (items : List Json) : Option Mistake :=
  let parts : List CandidateField := [.target, .guard, .actions]
  let mistakes := (items.zip parts).filterMap fun (item, part) => partMistake? item part
  mistakes.head?.or
    (if parts.length < items.length then some (.surplusItems items.length) else none)

/-- What is wrong with a candidate. -/
def candidateMistake? : Json → Option Mistake
  | .object members => memberMistake? [] members
  | .array items => itemMistake? items
  | value => some (.wrongType value "struct CandidateConfig")

/-- What is wrong with the members of an object of candidates. -/
def objectMistake? (members : List (String × Json)) : Option Mistake :=
  if members.any (fun m => m.1 ∈ TransitionConfig.candidateKeys) then memberMistake? [] members
  else members.findSome? fun m => if m.2.isNull then none else candidateMistake? m.2

/-- Passes over the items of an array of candidates.  The fuel bounds their number. -/
def candidates (fuel levels : Nat) (start : Bool) (s : List Char) : Checking :=
  match fuel with
  | 0 => flawed .endInList []
  | fuel + 1 => do
    match ← sound (Json.nextItem start s) with
    | .close rest => return rest
    | .more s =>
      let fits (tree : Json.Raw) : Bool := (CandidateConfig.ofItem? tree).isSome
      candidates fuel levels false (← whole "Item" fits levels s)

/-- Passes over the candidates for an event. -/
def transitions (levels : Nat) (s : List Char) : Checking :=
  match Json.afterSpace s with
  | '"' :: rest => restOfText rest
  | 'n' :: rest => restOfNull rest
  | '[' :: rest => do
    let levels ← enter levels rest
    (candidates rest.length.succ levels true rest).mapError Blame.closeArray
  | '\x7b' :: rest => do
    let levels ← enter levels rest
    let after ← sound (Json.passMembers (Json.passFuel rest) levels true rest)
    match valueBetween ('\x7b' :: rest) after with
    | .object members =>
      match objectMistake? members with
      | none => return after
      | some mistake => mistaken mistake after
    | _ => return after
  | s => unwanted "a target string, a transition object or an array of them" s

/-! ### States -/

/-- The name of a part of a state. -/
def fieldName : StateField → String
  | .id => "id"
  | .key => "key"
  | .initial => "initial"
  | .type => "type"
  | .parallel => "parallel"
  | .history => "history"
  | .states => "states"
  | .on => "on"
  | .after => "after"
  | .onDone => "onDone"
  | .entry => "onEntry"
  | .exit => "onExit"
  | .context => "context"

mutual

/-- Passes over a state.  The fuel bounds the number of steps. -/
def state (fuel levels : Nat) (s : List Char) : Checking :=
  match fuel with
  | 0 => flawed .endInValue []
  | fuel + 1 =>
    match Json.afterSpace s with
    | '\x7b' :: rest => do
      let levels ← enter levels rest
      (members fuel levels true [] rest).mapError Blame.closeObject
    | '[' :: rest => do
      let levels ← enter levels rest
      (items fuel levels true StateField.inOrder rest).mapError Blame.closeArray
    | s => unwanted "struct StateConfig" s

/-- Passes over the members of a state after those of the parts `seen`. -/
def members (fuel levels : Nat) (start : Bool) (seen : List StateField) (s : List Char) :
    Checking :=
  match fuel with
  | 0 => flawed .endInObject []
  | fuel + 1 => do
    match ← sound (Json.nextMember start s) with
    | .close rest => return rest
    | .more s =>
      let rest ← restOfText s
      match StateField.ofKey? (textBetween ('"' :: s) rest) with
      | none =>
        let s ← sound (Json.passColon rest)
        members fuel levels false seen (← sound (Json.skipValue (Json.passFuel s) s))
      | some field =>
        if field ∈ seen then throw ⟨.repeatedPart (fieldName field), rest, false⟩
        else
          let s ← sound (Json.passColon rest)
          members fuel levels false (field :: seen) (← part fuel levels field s)

/-- Passes over the items of a state, which are its parts in order. -/
def items (fuel levels : Nat) (start : Bool) (fields : List StateField) (s : List Char) :
    Checking :=
  match fuel with
  | 0 => flawed .endInList []
  | fuel + 1 =>
    match fields with
    | [] =>
      match Json.afterSpace s with
      | [] => flawed .endInList []
      | ']' :: rest => .ok rest
      | ',' :: rest =>
        match Json.afterSpace rest with
        | ']' :: rest => flawed .trailingComma rest
        | rest => flawed .trailingCharacters (rest.drop 1)
      | _ :: rest => flawed .trailingCharacters rest
    | field :: fields => do
      match ← sound (Json.nextItem start s) with
      | .close rest => return rest
      | .more s => items fuel levels false fields (← part fuel levels field s)

/-- Passes over a part of a state. -/
def part (fuel levels : Nat) (field : StateField) (s : List Char) : Checking :=
  match fuel with
  | 0 => flawed .endInValue []
  | fuel + 1 =>
    match field with
    | .id => optional text s
    | .key => optional text s
    | .initial => optional text s
    | .type => optional (stateType levels) s
    | .parallel => flag s
    | .history =>
      optional (whole "HistoryConfig" (fun t => (HistoryConfig.ofSound? t).isSome) levels) s
    | .states => mapping fuel levels false s
    | .on => mapping fuel levels true s
    | .after => mapping fuel levels true s
    | .onDone => optional (transitions levels) s
    | .entry => whole "Raw" (fun t => (actionsOfSound? t).isSome) levels s
    | .exit => whole "Raw" (fun t => (actionsOfSound? t).isSome) levels s
    | .context => passWhole levels s

/-- Passes over an object whose values are states, or the candidates for events. -/
def mapping (fuel levels : Nat) (ofEvents : Bool) (s : List Char) : Checking :=
  match fuel with
  | 0 => flawed .endInValue []
  | fuel + 1 =>
    match Json.afterSpace s with
    | '\x7b' :: rest => do
      let levels ← enter levels rest
      (entries fuel levels ofEvents true rest).mapError Blame.closeObject
    | s => unwanted "an object" s

/-- Passes over the entries of such an object. -/
def entries (fuel levels : Nat) (ofEvents start : Bool) (s : List Char) : Checking :=
  match fuel with
  | 0 => flawed .endInObject []
  | fuel + 1 => do
    match ← sound (Json.nextMember start s) with
    | .close rest => return rest
    | .more s =>
      let s ← sound (Json.passColon (← restOfText s))
      let rest ← if ofEvents then transitions levels s else state fuel levels s
      entries fuel levels ofEvents false rest

end

/-- Passes over the octets of a machine. -/
def document (s : List Char) : Except Blame Unit := do
  let rest ← state (4 * s.length + 4) 128 s
  match Json.afterSpace rest with
  | [] => return ()
  | _ :: rest => flawed .trailingCharacters rest

end Checking

/-- What is wrong with a text that cannot be read as a machine, with the line and the
column; nothing for one that can. -/
def StateConfig.complaint? (text : String) : Option String :=
  let all := Json.octets text
  match Checking.document all with
  | .error b => some (b.mistake.message ++ Json.placeText all b.rest)
  | .ok _ => Json.complaint? text

/-- Why a machine in a text is refused.  Where the text cannot be read as one, it is told
what is wrong with it. -/
def StateConfig.refusal (text : String) (e : Error) : String :=
  match e, StateConfig.complaint? text with
  | .json _, some complaint => "JSON error: " ++ complaint
  | e, _ => e.message

end Statechart
