/-
JSON values as text.

`compact` writes no white space at all; `pretty` puts every item and member on a
line of its own, two spaces deeper than what holds it.
-/
import Statechart.Json.Basic
import Statechart.Decimal.Style

namespace Statechart.Json

/-- Doubles in JSON keep a point, and are written in full when the exponent of
their leading digit is from -5 to 15. -/
def floatStyle : Decimal.Style where
  tie := .toEven
  positional := fun e => -5 ≤ e && e ≤ 15
  wholeTail := ".0"

/-- The text of a number. -/
def numberText : Number → String
  | .int value => toString value
  | .float value => if value.isFinite then floatStyle.format value else "null"

/-- A character below 32 that has no letter of its own, in two hexadecimal digits. -/
def controlEscape (c : Char) : String :=
  String.ofList ['\\', 'u', '0', '0', Nat.digitChar (c.toNat / 16), Nat.digitChar (c.toNat % 16)]

/-- A character as it stands inside quotes. -/
def escapeChar (c : Char) : String :=
  if c = '"' then "\\\""
  else if c = '\\' then "\\\\"
  else if c = '\n' then "\\n"
  else if c = '\r' then "\\r"
  else if c = '\t' then "\\t"
  else if c = '\x08' then "\\b"
  else if c = '\x0c' then "\\f"
  else if c.toNat < 32 then controlEscape c
  else c.toString

/-- A text in quotes. -/
def quote (s : String) : String :=
  s.foldl (fun acc c => acc ++ escapeChar c) "\"" ++ "\""

mutual

/-- The text of a value without white space. -/
def compact : Json → String
  | .null => "null"
  | .bool true => "true"
  | .bool false => "false"
  | .number n => numberText n
  | .string s => quote s
  | .array items => "[" ++ ",".intercalate (compactItems items) ++ "]"
  | .object members => "\x7b" ++ ",".intercalate (compactMembers members) ++ "\x7d"

/-- The items of an array, each without blanks. -/
def compactItems : List Json → List String
  | [] => []
  | item :: rest => item.compact :: compactItems rest

/-- The members of an object, each without blanks. -/
def compactMembers : List (String × Json) → List String
  | [] => []
  | (key, value) :: rest => (quote key ++ ":" ++ value.compact) :: compactMembers rest

end

/-- A line break and the indentation of a depth. -/
def newline (depth : Nat) : String :=
  String.ofList ('\n' :: List.replicate (2 * depth) ' ')

/-- Lines between brackets; an empty list stays on one line. -/
def bracketed (depth : Nat) (opening closing : String) (lines : List String) : String :=
  if lines.isEmpty then opening ++ closing
  else
    opening ++ newline (depth + 1) ++ ("," ++ newline (depth + 1)).intercalate lines
      ++ newline depth ++ closing

mutual

/-- The text of a value over several lines, inside `depth` others. -/
def prettyAt (depth : Nat) : Json → String
  | .array items => bracketed depth "[" "]" (prettyItems (depth + 1) items)
  | .object members => bracketed depth "\x7b" "\x7d" (prettyMembers (depth + 1) members)
  | .null => "null"
  | .bool true => "true"
  | .bool false => "false"
  | .number n => numberText n
  | .string s => quote s

/-- The items of an array, each at its depth. -/
def prettyItems (depth : Nat) : List Json → List String
  | [] => []
  | item :: rest => item.prettyAt depth :: prettyItems depth rest

/-- The members of an object, each at its depth. -/
def prettyMembers (depth : Nat) : List (String × Json) → List String
  | [] => []
  | (key, value) :: rest =>
    (quote key ++ ": " ++ value.prettyAt depth) :: prettyMembers depth rest

end

/-- The text of a value over several lines. -/
def pretty (j : Json) : String :=
  j.prettyAt 0

end Statechart.Json
