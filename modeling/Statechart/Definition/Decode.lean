/-
A machine from JSON.

The raw tree of a text is walked from left to right, so that the first fault wins,
whether it lies in the grammar or in the shape.  A value is walked in the same way;
nothing but its shape can be at fault.  Members with an unknown key are passed over.
Parts that may have several shapes are read as a whole first.
-/
import Statechart.Definition.Config
import Statechart.Json.Raw

namespace Statechart

open Json (Raw Origin Fault)

namespace Json

/-- What is wrong with a tree that is not of the shape that is wanted: its own fault,
or its shape. -/
def Raw.refusal : Raw → Fault
  | .broken reading _ _ => reading
  | .number none => .malformed
  | .string none => .malformed
  | _ => .mismatched

/-- What is wrong with items beyond those that are wanted. -/
def Origin.surplus : Origin → Fault
  | .text _ => .malformed
  | .value => .mismatched

/-- Reads a whole tree for its own faults. -/
def Raw.sound (origin : Origin) (raw : Raw) : Except Fault Unit :=
  match origin with
  | .text _ => (raw.value origin).map (fun _ => ())
  | .value => .ok ()

/-- Passes over a tree. -/
def Raw.ignore (origin : Origin) (raw : Raw) : Except Fault Unit :=
  match origin with
  | .text _ => raw.skip
  | .value => .ok ()

/-- A shape that was found or not. -/
def wanted {α : Type} : Option α → Except Fault α
  | some a => .ok a
  | none => .error .mismatched

/-- A tree that may be null. -/
def Raw.optional {α : Type} (read : Raw → Except Fault α) : Raw → Except Fault (Option α)
  | .null => .ok none
  | raw => (read raw).map some

/-- A text. -/
def Raw.asString : Raw → Except Fault String
  | .string (some s) => .ok s
  | raw => .error raw.refusal

/-- A truth value. -/
def Raw.asBool : Raw → Except Fault Bool
  | .bool b => .ok b
  | raw => .error raw.refusal

/-- The values at the key `type`. -/
def Raw.Members.typeValues : Raw.Members → List Raw
  | .member (.text "type") value rest => value :: rest.typeValues
  | .member _ _ rest => rest.typeValues
  | _ => []

/-- The name in an object that has exactly one member `type`, a text. -/
def Raw.Members.typeName? (members : Raw.Members) : Option String :=
  match members.typeValues with
  | [.string (some name)] => some name
  | _ => none

/-- The key of an object of one member that is null. -/
def Raw.Members.soleKey? : Raw.Members → Option String
  | .member (.text key) .null .close => some key
  | _ => none

/-- The items of an array in order. -/
def Raw.Items.list : Raw.Items → List Raw
  | .item head rest => head :: rest.list
  | _ => []

/-- The entries of an object in order, each value read by `read`. -/
def Raw.Members.entries {α : Type} (read : Raw → Except Fault α) :
    Raw.Members → Except Fault (List (String × α))
  | .close => .ok []
  | .broken reading _ => .error reading
  | .member key value rest => do
    let key ← key.read
    let value ← read value
    let rest ← rest.entries read
    return (key, value) :: rest

end Json

namespace StateType

/-- The one member of an object that names a type, in a text. -/
def ofMembers : Raw.Members → Except Fault StateType
  | .close => .error .malformed
  | .broken reading _ => .error reading
  | .member .unpaired _ _ => .error .malformed
  | .member .stray _ _ => .error .malformed
  | .member (.text name) value rest => do
    let type ← Json.wanted (ofName? name)
    match value with
    | .null =>
      match rest with
      | .close => return type
      | .broken _ closing => throw closing
      | .member _ _ _ => throw .malformed
    | value => throw value.refusal

/-- A type: its name, or an object whose one member has that name and is null. -/
def ofRaw (origin : Origin) (raw : Raw) : Except Fault StateType :=
  match origin with
  | .text _ =>
    match raw with
    | .string (some name) => Json.wanted (ofName? name)
    | .string none => .error .malformed
    | .object members => do
      let _ ← origin.inner
      ofMembers members
    | .broken _ _ naming => .error naming
    | _ => .error .malformed
  | .value =>
    match raw with
    | .string (some name) => Json.wanted (ofName? name)
    | .object members => Json.wanted (members.soleKey? >>= ofName?)
    | _ => .error .mismatched

end StateType

namespace HistoryConfig

/-- A history mode that has been read as a whole. -/
def ofSound? : Raw → Option HistoryConfig
  | .bool on => some (.flag on)
  | .string (some name) => (HistoryKind.ofName? name).map .mode
  | .object members => (members.soleKey? >>= HistoryKind.ofName?).map .mode
  | _ => none

/-- A history mode: a flag, a name, or an object whose one member has that name and
is null. -/
def ofRaw (origin : Origin) (raw : Raw) : Except Fault HistoryConfig := do
  raw.sound origin
  Json.wanted (ofSound? raw)

end HistoryConfig

/-- An action: its name, or an object with the name as its type. -/
def actionOfRaw? : Raw → Option Action
  | .string (some name) => some name
  | .object members => members.typeName?
  | _ => none

/-- Actions that have been read as a whole: one, or an array of them. -/
def actionsOfSound? : Raw → Option (List Action)
  | .array items => items.list.mapM actionOfRaw?
  | raw => (actionOfRaw? raw).map ([·])

/-- Actions. -/
def actionsOfRaw (origin : Origin) (raw : Raw) : Except Fault (List Action) := do
  raw.sound origin
  Json.wanted (actionsOfSound? raw)

/-- A guard that has been read as a whole: its text, or an object with a name as its
type. -/
def GuardConfig.ofRaw? : Raw → Option GuardConfig
  | .string (some text) => some (.source text)
  | .object members => members.typeName?.map .named
  | _ => none

/-- Something that may be null. -/
def orNull? {α : Type} (read : Raw → Option α) : Raw → Option (Option α)
  | .null => some none
  | raw => (read raw).map some

/-- A text that may be null. -/
def textOrNull? : Raw → Option (Option String) :=
  orNull? fun
    | .string (some s) => some s
    | _ => none

/-- The parts of a candidate. -/
inductive CandidateField
  | target
  | guard
  | actions
deriving DecidableEq

/-- The part with a key. -/
def CandidateField.ofKey? : String → Option CandidateField
  | "target" => some .target
  | "cond" => some .guard
  | "guard" => some .guard
  | "actions" => some .actions
  | _ => none

namespace CandidateConfig

/-- Sets a part of a candidate. -/
def read? (c : CandidateConfig) (raw : Raw) : CandidateField → Option CandidateConfig
  | .target => (textOrNull? raw).map fun target => { c with target }
  | .guard => (orNull? GuardConfig.ofRaw? raw).map fun guard => { c with guard }
  | .actions => (actionsOfSound? raw).map fun actions => { c with actions }

/-- A candidate from the members after those of the parts `seen`; no part may be
written twice. -/
def ofMembers? (c : CandidateConfig) (seen : List CandidateField) :
    Raw.Members → Option CandidateConfig
  | .member (.text key) value rest =>
    match CandidateField.ofKey? key with
    | none => ofMembers? c seen rest
    | some part =>
      if part ∈ seen then none
      else
        match c.read? value part with
        | none => none
        | some c => ofMembers? c (part :: seen) rest
  | .member _ _ rest => ofMembers? c seen rest
  | _ => some c

/-- A candidate from its parts in order. -/
def ofItems? (c : CandidateConfig) : List CandidateField → Raw.Items → Option CandidateConfig
  | part :: parts, .item head rest =>
    match c.read? head part with
    | none => none
    | some c => ofItems? c parts rest
  | [], .item _ _ => none
  | _, _ => some c

/-- A candidate that has been read as a whole. -/
def ofSound? : Raw → Option CandidateConfig
  | .object members => ofMembers? idle [] members
  | .array items => ofItems? idle [.target, .guard, .actions] items
  | _ => none

/-- The candidate with a target alone; an empty text is no target. -/
def toTarget (target : String) : CandidateConfig :=
  if target.isEmpty then idle else { idle with target := some target }

/-- An item of an array of candidates: a target or a candidate. -/
def ofItem? : Raw → Option CandidateConfig
  | .string (some target) => some (toTarget target)
  | raw => ofSound? raw

end CandidateConfig

namespace TransitionConfig

/-- The keys that make an object one candidate, and not a mapping from targets. -/
def candidateKeys : List String := ["target", "cond", "guard", "actions", "internal"]

/-- An entry of a mapping from targets. -/
def ofTargetEntry? (target : String) (value : Json) : Option CandidateConfig := do
  let c ←
    if value.isNull then some CandidateConfig.idle else CandidateConfig.ofSound? value.toRaw
  return { c with target := some target }

/-- The candidates of an object: the object is one, or maps targets to them. -/
def ofObject? (members : List (String × Json)) : Option TransitionConfig :=
  if members.any (fun m => m.1 ∈ candidateKeys) then
    (CandidateConfig.ofSound? (Json.object members).toRaw).map ([·])
  else
    members.mapM fun m => ofTargetEntry? m.1 m.2

/-- The candidates of an array, each read as a whole. -/
def ofItems (origin : Origin) : Raw.Items → Except Fault TransitionConfig
  | .close => .ok []
  | .broken fault => .error fault
  | .item head rest => do
    head.sound origin
    let c ← Json.wanted (CandidateConfig.ofItem? head)
    let rest ← ofItems origin rest
    return c :: rest

/-- The candidates for an event: a target, an object, an array, or null for none. -/
def ofRaw (origin : Origin) : Raw → Except Fault TransitionConfig
  | .string (some target) => .ok [CandidateConfig.toTarget target]
  | .null => .ok []
  | .array items => do
    let origin ← origin.inner
    ofItems origin items
  | .object members => do
    let origin ← origin.inner
    let members ← members.values origin []
    Json.wanted (ofObject? members)
  | raw => .error raw.refusal

/-- Candidates by event. -/
def mapOfRaw (origin : Origin) : Raw → Except Fault (List (String × TransitionConfig))
  | .object members => do
    let origin ← origin.inner
    members.entries (ofRaw origin)
  | raw => .error raw.refusal

end TransitionConfig

/-- The parts of a state. -/
inductive StateField
  | id
  | key
  | initial
  | type
  | parallel
  | history
  | states
  | on
  | after
  | onDone
  | entry
  | exit
  | context
deriving DecidableEq

namespace StateField

/-- The parts in the order in which an array lists them. -/
def inOrder : List StateField :=
  [.id, .key, .initial, .type, .parallel, .history, .states, .on, .after, .onDone, .entry,
    .exit, .context]

/-- The part with a key. -/
def ofKey? : String → Option StateField
  | "id" => some .id
  | "key" => some .key
  | "initial" => some .initial
  | "type" => some .type
  | "parallel" => some .parallel
  | "history" => some .history
  | "states" => some .states
  | "on" => some .on
  | "after" => some .after
  | "onDone" => some .onDone
  | "onEntry" => some .entry
  | "entry" => some .entry
  | "onExit" => some .exit
  | "exit" => some .exit
  | "context" => some .context
  | _ => none

end StateField

namespace StateConfig

/-- A state of which nothing is written. -/
def blank : StateConfig where
  id := none
  key := none
  initial := none
  type := none
  parallel := false
  history := none
  states := []
  on := []
  after := []
  onDone := none
  entry := []
  exit := []
  context := none

mutual

/-- A state: an object of its parts, or an array of them in order. -/
def ofRaw (origin : Origin) : Raw → Except Fault StateConfig
  | .object members => do
    let origin ← origin.inner
    ofMembers origin blank [] members
  | .array items => do
    let origin ← origin.inner
    ofItems origin blank StateField.inOrder items
  | raw => .error raw.refusal

/-- Sets the parts of the members after those of the parts `seen`; no part may be
written twice. -/
def ofMembers (origin : Origin) (c : StateConfig) (seen : List StateField) :
    Raw.Members → Except Fault StateConfig
  | .close => .ok c
  | .broken reading _ => .error reading
  | .member key value rest => do
    let key ← key.read
    match StateField.ofKey? key with
    | none =>
      value.ignore origin
      ofMembers origin c seen rest
    | some part =>
      if part ∈ seen then throw .mismatched
      else
        let c ← readPart origin c part value
        ofMembers origin c (part :: seen) rest

/-- Sets the parts of the items, in order. -/
def ofItems (origin : Origin) (c : StateConfig) (parts : List StateField) :
    Raw.Items → Except Fault StateConfig
  | .close => .ok c
  | .broken fault => .error fault
  | .item head rest =>
    match parts with
    | [] => .error origin.surplus
    | part :: parts => do
      let c ← readPart origin c part head
      ofItems origin c parts rest

/-- Sets one part of a state. -/
def readPart (origin : Origin) (c : StateConfig) (part : StateField) (raw : Raw) :
    Except Fault StateConfig :=
  match part with
  | .id => do return { c with id := ← raw.optional Json.Raw.asString }
  | .key => do return { c with key := ← raw.optional Json.Raw.asString }
  | .initial => do return { c with initial := ← raw.optional Json.Raw.asString }
  | .type => do return { c with type := ← raw.optional (StateType.ofRaw origin) }
  | .parallel => do return { c with parallel := ← raw.asBool }
  | .history => do return { c with history := ← raw.optional (HistoryConfig.ofRaw origin) }
  | .states =>
    match raw with
    | .object members => do
      let origin ← origin.inner
      return { c with states := ← statesOfMembers origin members }
    | raw => .error raw.refusal
  | .on => do return { c with on := ← TransitionConfig.mapOfRaw origin raw }
  | .after => do return { c with after := ← TransitionConfig.mapOfRaw origin raw }
  | .onDone => do return { c with onDone := ← raw.optional (TransitionConfig.ofRaw origin) }
  | .entry => do return { c with entry := ← actionsOfRaw origin raw }
  | .exit => do return { c with exit := ← actionsOfRaw origin raw }
  | .context => do return { c with context := ← raw.optional (Json.Raw.value origin) }

/-- States by key. -/
def statesOfMembers (origin : Origin) :
    Raw.Members → Except Fault (List (String × StateConfig))
  | .close => .ok []
  | .broken reading _ => .error reading
  | .member key value rest => do
    let key ← key.read
    let value ← ofRaw origin value
    let rest ← statesOfMembers origin rest
    return (key, value) :: rest

end

/-- The machine of a value. -/
def ofJson (j : Json) : Except Fault StateConfig :=
  ofRaw .value j.toRaw

end StateConfig

end Statechart
