/-
JSON text as it stands, before it is taken for a value.

A `Raw` tree keeps what a value forgets: keys that are written twice, texts with
an unpaired surrogate, numbers that are out of range, and the place where the text
breaks off.  Lists end in `close` or in `broken`, so that what stands before the
break can still be read.  `Raw.value` reads the whole tree; `Raw.skip` passes over
it and asks only for the grammar.
-/
import Statechart.Json.Basic

namespace Statechart.Json

/-- Where a raw tree comes from, which decides what limits hold for it. -/
inductive Origin
  /-- A text, in which one array or object less than `levels` may still be entered. -/
  | text (levels : Nat)
  /-- A value, which is sound throughout and of any depth. -/
  | value

/-- The start of a text, in which 127 arrays and objects may stand inside each other. -/
def wholeText : Origin := .text 128

/-- One array or object further in, unless the limit is reached. -/
def Origin.inner : Origin → Except Fault Origin
  | .text levels => if levels ≤ 1 then .error .malformed else .ok (.text (levels - 1))
  | .value => .ok .value

/-- The key of a member as it stands. -/
inductive Raw.Key
  | text (key : String)
  /-- A text in which a surrogate has no partner. -/
  | unpaired
  /-- Something that is no text, which is then the value of the member. -/
  | stray

mutual

/-- A JSON text as it stands. -/
inductive Raw
  | null
  | bool (value : Bool)
  /-- A number; nothing if it is too large for a double. -/
  | number (value : Option Number)
  /-- A text; nothing if a surrogate in it has no partner. -/
  | string (value : Option String)
  | array (items : Raw.Items)
  | object (members : Raw.Members)
  /-- The text breaks here: for a reader, for one who passes over it, and for one who
  wants a name, and stops at the first character that cannot begin one. -/
  | broken (reading skipping naming : Fault)

/-- The items of an array as they stand. -/
inductive Raw.Items
  | close
  | broken (fault : Fault)
  | item (head : Raw) (rest : Raw.Items)

/-- The members of an object as they stand. -/
inductive Raw.Members
  | close
  /-- The text breaks here: for a reader, and for one who wants no more members, and
  stops at a comma. -/
  | broken (reading closing : Fault)
  | member (key : Raw.Key) (value : Raw) (rest : Raw.Members)

end

/-- A text that ends where a value should stand. -/
def Raw.truncated : Raw := .broken .truncated .truncated .truncated

/-- Something that begins no value. -/
def Raw.malformed : Raw := .broken .malformed .malformed .malformed

mutual

/-- Passes over a text, asking only for the grammar. -/
def Raw.skip : Raw → Except Fault Unit
  | .array items => items.skip
  | .object members => members.skip
  | .broken _ skipping _ => .error skipping
  | .null => .ok ()
  | .bool _ => .ok ()
  | .number _ => .ok ()
  | .string _ => .ok ()

/-- Passes over the items of an array. -/
def Raw.Items.skip : Raw.Items → Except Fault Unit
  | .close => .ok ()
  | .broken fault => .error fault
  | .item head rest => do
    head.skip
    rest.skip

/-- Passes over the members of an object. -/
def Raw.Members.skip : Raw.Members → Except Fault Unit
  | .close => .ok ()
  | .broken reading _ => .error reading
  | .member .stray _ _ => .error .malformed
  | .member (.text _) value rest => do
    value.skip
    rest.skip
  | .member .unpaired value rest => do
    value.skip
    rest.skip

end

/-- The text of a key. -/
def Raw.Key.read : Raw.Key → Except Fault String
  | .text key => .ok key
  | .unpaired => .error .malformed
  | .stray => .error .malformed

mutual

/-- The value of a text. -/
def Raw.value (origin : Origin) : Raw → Except Fault Json
  | .null => .ok .null
  | .bool b => .ok (.bool b)
  | .number (some n) => .ok (.number n)
  | .number none => .error .malformed
  | .string (some s) => .ok (.string s)
  | .string none => .error .malformed
  | .array items => do
    let origin ← origin.inner
    return .array (← items.values origin)
  | .object members => do
    let origin ← origin.inner
    return .object (← members.values origin [])
  | .broken reading _ _ => .error reading

/-- The values of the items of an array. -/
def Raw.Items.values (origin : Origin) : Raw.Items → Except Fault (List Json)
  | .close => .ok []
  | .broken fault => .error fault
  | .item head rest => do
    let head ← head.value origin
    return head :: (← rest.values origin)

/-- Reads members after those that have been read. -/
def Raw.Members.values (origin : Origin) : Raw.Members → List (String × Json) →
    Except Fault (List (String × Json))
  | .close, seen => .ok seen
  | .broken reading _, _ => .error reading
  | .member key value rest, seen => do
    let key ← key.read
    let value ← value.value origin
    rest.values origin (putMember seen key value)

end

mutual

/-- A value as a text that writes it. -/
def toRaw : Json → Raw
  | .null => .null
  | .bool b => .bool b
  | .number n => .number (some n)
  | .string s => .string (some s)
  | .array items => .array (toRawItems items)
  | .object members => .object (toRawMembers members)

/-- The items of an array as they would be read. -/
def toRawItems : List Json → Raw.Items
  | [] => .close
  | item :: rest => .item item.toRaw (toRawItems rest)

/-- The members of an object as they would be read. -/
def toRawMembers : List (String × Json) → Raw.Members
  | [] => .close
  | (key, value) :: rest => .member (.text key) value.toRaw (toRawMembers rest)

end

end Statechart.Json
