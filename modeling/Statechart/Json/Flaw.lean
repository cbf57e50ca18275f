/-
What is wrong with a text that is no value, and where.

Places are counted in bytes, so a text is passed over as its octets, a character for
each.  The first flaw counts.  It is found where the next character cannot go on from
what stands before it; some are noticed before that character is taken and some after,
which shows in the column.
-/
import Statechart.Json.Reader

namespace Statechart.Json

/-- What is wrong with a text. -/
inductive FlawKind
  | endInList
  | endInObject
  | endInText
  | endInValue
  | wantedColon
  | wantedItemOrEnd
  | wantedMemberOrEnd
  | wantedWord
  | wantedValue
  | badEscape
  | badNumber
  | hugeNumber
  | controlCharacter
  | keyIsNoText
  | loneSurrogate
  | unfinishedPair
  | trailingComma
  | trailingCharacters
  | tooDeep
  deriving DecidableEq

/-- The text for a kind of flaw. -/
def FlawKind.message : FlawKind → String
  | .endInList => "EOF while parsing a list"
  | .endInObject => "EOF while parsing an object"
  | .endInText => "EOF while parsing a string"
  | .endInValue => "EOF while parsing a value"
  | .wantedColon => "expected `:`"
  | .wantedItemOrEnd => "expected `,` or `]`"
  | .wantedMemberOrEnd => "expected `,` or `\x7d`"
  | .wantedWord => "expected ident"
  | .wantedValue => "expected value"
  | .badEscape => "invalid escape"
  | .badNumber => "invalid number"
  | .hugeNumber => "number out of range"
  | .controlCharacter => "control character (\\u0000-\\u001F) found while parsing a string"
  | .keyIsNoText => "key must be a string"
  | .loneSurrogate => "lone leading surrogate in hex escape"
  | .unfinishedPair => "unexpected end of hex escape"
  | .trailingComma => "trailing comma"
  | .trailingCharacters => "trailing characters"
  | .tooDeep => "recursion limit exceeded"

/-- A flaw, and the octets that stand after its place. -/
structure Flaw where
  kind : FlawKind
  rest : List Char

/-- What follows something, unless it has a flaw. -/
abbrev Passing := Except Flaw (List Char)

/-- A flaw with what stands after it. -/
def flaw {α : Type} (kind : FlawKind) (rest : List Char) : Except Flaw α :=
  .error ⟨kind, rest⟩

/-- The octets of a text, a character for each. -/
def octets (s : String) : List Char :=
  s.toUTF8.toList.map fun b => Char.ofNat b.toNat

/-! ### Texts in quotes -/

/-- Passes over four digits to the base 16, for their number. -/
def passQuad : List Char → Except Flaw (Nat × List Char)
  | a :: b :: c :: d :: rest =>
    match hexQuad? a b c d with
    | some n => .ok (n, rest)
    | none => flaw .badEscape rest
  | _ => flaw .endInText []

/-- Passes over the rest of an escape by number.  The first half of a pair wants the
second. -/
def passUnit (s : List Char) : Passing := do
  let (n, s) ← passQuad s
  if isLowSurrogate n then flaw .loneSurrogate s
  else if !isHighSurrogate n then return s
  else
    match s with
    | [] => flaw .endInText []
    | ['\\'] => flaw .endInText []
    | '\\' :: 'u' :: s =>
      let (m, s) ← passQuad s
      if isLowSurrogate m then return s else flaw .loneSurrogate s
    | '\\' :: _ :: s => flaw .unfinishedPair s
    | _ :: s => flaw .unfinishedPair s

/-- Passes over the rest of an escape. -/
def passEscape : List Char → Passing
  | [] => flaw .endInText []
  | 'u' :: rest => passUnit rest
  | c :: rest => if (escapeLetter? c).isSome then .ok rest else flaw .badEscape rest

/-- Passes over a text after its opening quote.  The fuel bounds the number of steps; the
length of the text is enough. -/
def passText (fuel : Nat) (s : List Char) : Passing :=
  match fuel, s with
  | 0, _ => flaw .endInText []
  | _ + 1, [] => flaw .endInText []
  | _ + 1, '"' :: rest => .ok rest
  | fuel + 1, '\\' :: rest => do passText fuel (← passEscape rest)
  | fuel + 1, c :: rest =>
    if c.toNat < 32 then flaw .controlCharacter rest else passText fuel rest

/-! ### Numbers and words -/

/-- What follows the digit with which an exponent exceeds its limit. -/
def afterExcess (n : Nat) : List Char → List Char
  | [] => []
  | c :: rest =>
    if c.isDigit then
      let n := n * 10 + digitOf c
      if largestExponent < n then rest else afterExcess n rest
    else c :: rest

/-- Passes over the exponent of a numeral, if it has one. -/
def passExponent (whole : List Nat) (fraction : Option (List Nat)) (s : List Char) : Passing :=
  let check (exponent : Option (Bool × List Nat)) (place rest : List Char) : Passing :=
    if (Numeral.value ⟨false, whole, fraction, exponent⟩).isSome then .ok rest
    else flaw .hugeNumber place
  match s with
  | [] => check none [] []
  | e :: rest =>
    if e = 'e' || e = 'E' then
      let (down, rest) :=
        match rest with
        | '+' :: rest => (false, rest)
        | '-' :: rest => (true, rest)
        | rest => (false, rest)
      let (digits, after) := takeDigits rest
      match digits, after with
      | [], [] => flaw .endInValue []
      | [], _ :: after => flaw .badNumber after
      | digits, after =>
        let place := if largestExponent < digitsValue digits then afterExcess 0 rest else after
        check (some (down, digits)) place after
    else check none s s

/-- Passes over a numeral after its sign. -/
def passNumber (s : List Char) : Passing :=
  match takeDigits s with
  | ([], []) => flaw .endInValue []
  | ([], _ :: rest) => flaw .badNumber rest
  | (0 :: _ :: _, _) => flaw .badNumber (s.drop 2)
  | (whole, '.' :: rest) =>
    match takeDigits rest with
    | ([], []) => flaw .endInValue []
    | ([], _ :: after) => flaw .badNumber after
    | (digits, after) => passExponent whole (some digits) after
  | (whole, rest) => passExponent whole none rest

/-- Passes over the rest of a word. -/
def passWord : List Char → List Char → Passing
  | [], rest => .ok rest
  | _ :: _, [] => flaw .endInValue []
  | w :: word, c :: rest => if w = c then passWord word rest else flaw .wantedWord rest

/-! ### Arrays and objects -/

/-- What stands where an item or a member may stand. -/
inductive Next
  /-- The end, and what follows it. -/
  | close (rest : List Char)
  /-- An item, or a key after its opening quote. -/
  | more (s : List Char)

/-- Passes over what stands before the next item of an array; at the start no comma is
wanted. -/
def nextItem (start : Bool) (s : List Char) : Except Flaw Next :=
  match afterSpace s with
  | [] => flaw .endInList []
  | ']' :: rest => .ok (.close rest)
  | c :: rest =>
    if start then .ok (.more (c :: rest))
    else if c = ',' then
      match afterSpace rest with
      | ']' :: after => flaw .trailingComma after
      | rest => .ok (.more rest)
    else flaw .wantedItemOrEnd rest

/-- Passes over the opening quote of a key. -/
def openKey : List Char → Except Flaw Next
  | '"' :: rest => .ok (.more rest)
  | [] => flaw .endInValue []
  | _ :: rest => flaw .keyIsNoText rest

/-- Passes over what stands before the next key of an object; at the start no comma is
wanted. -/
def nextMember (start : Bool) (s : List Char) : Except Flaw Next :=
  match afterSpace s with
  | [] => flaw .endInObject []
  | '\x7d' :: rest => .ok (.close rest)
  | c :: rest =>
    if start then openKey (c :: rest)
    else if c = ',' then
      match afterSpace rest with
      | '\x7d' :: after => flaw .trailingComma after
      | rest => openKey rest
    else flaw .wantedMemberOrEnd rest

/-- Passes over the colon after a key. -/
def passColon (s : List Char) : Passing :=
  match afterSpace s with
  | [] => flaw .endInObject []
  | ':' :: rest => .ok rest
  | _ :: after => flaw .wantedColon after

/-! ### Values -/

mutual

/-- Passes over a value, when one array or object less than `levels` may be entered.  The
fuel bounds the number of steps. -/
def passValue (fuel levels : Nat) (s : List Char) : Passing :=
  match fuel with
  | 0 => flaw .endInValue []
  | fuel + 1 =>
    match afterSpace s with
    | [] => flaw .endInValue []
    | '"' :: rest => passText rest.length.succ rest
    | '[' :: rest =>
      if levels ≤ 1 then flaw .tooDeep rest else passItems fuel (levels - 1) true rest
    | '\x7b' :: rest =>
      if levels ≤ 1 then flaw .tooDeep rest else passMembers fuel (levels - 1) true rest
    | 'n' :: rest => passWord ['u', 'l', 'l'] rest
    | 't' :: rest => passWord ['r', 'u', 'e'] rest
    | 'f' :: rest => passWord ['a', 'l', 's', 'e'] rest
    | '-' :: rest => passNumber rest
    | c :: rest => if c.isDigit then passNumber (c :: rest) else flaw .wantedValue rest

/-- Passes over the items of an array up to its end. -/
def passItems (fuel levels : Nat) (start : Bool) (s : List Char) : Passing :=
  match fuel with
  | 0 => flaw .endInList []
  | fuel + 1 => do
    match ← nextItem start s with
    | .close rest => return rest
    | .more s => passItems fuel levels false (← passValue fuel levels s)

/-- Passes over the members of an object up to its end. -/
def passMembers (fuel levels : Nat) (start : Bool) (s : List Char) : Passing :=
  match fuel with
  | 0 => flaw .endInObject []
  | fuel + 1 => do
    match ← nextMember start s with
    | .close rest => return rest
    | .more s =>
      let s ← passColon (← passText s.length.succ s)
      passMembers fuel levels false (← passValue fuel levels s)

end

/-- Fuel that is enough to pass over a text. -/
def passFuel (s : List Char) : Nat := 3 * s.length + 3

/-- The first flaw of octets that are no value. -/
def firstFlaw? (s : List Char) : Option Flaw :=
  match passValue (passFuel s) 128 s with
  | .error f => some f
  | .ok rest =>
    match afterSpace rest with
    | [] => none
    | _ :: after => some ⟨.trailingCharacters, after⟩

/-- The line and the column of the place in some octets after which the rest stands. -/
def placeText (all rest : List Char) : String :=
  let before := all.take (all.length - rest.length)
  let line := before.count '\n' + 1
  let column := (before.reverse.takeWhile (· != '\n')).length
  s!" at line {line} column {column}"

/-- What is wrong with a text that is no value, with the line and the column; nothing for
one that is. -/
def complaint? (text : String) : Option String :=
  let all := octets text
  (firstFlaw? all).map fun f => f.kind.message ++ placeText all f.rest

/-- A text that is no value. -/
structure NoValue where
  text : String

/-- What is wrong with a text that is no value. -/
def NoValue.message (n : NoValue) : String :=
  (complaint? n.text).getD ""

/-- The value of a text, or the text that has none. -/
def valueOf (text : String) : Except NoValue Json :=
  (parse text).mapError fun _ => ⟨text⟩

end Statechart.Json
