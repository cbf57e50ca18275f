/-
JSON text to its raw tree.

Each reader takes the rest of the text and gives a tree with what follows it;
nothing follows a tree that is broken.  A text that ends too early is told apart
from one that goes wrong.
-/
import Statechart.Json.Raw
import Statechart.Json.Numeral

namespace Statechart.Json

/-- White space between the tokens of JSON. -/
def isSpace (c : Char) : Bool :=
  c = ' ' || c = '\n' || c = '\t' || c = '\r'

/-- The text from its first token on. -/
def afterSpace (s : List Char) : List Char :=
  s.dropWhile isSpace

/-- The value of a hexadecimal digit. -/
def hexDigit? (c : Char) : Option Nat :=
  if '0' ≤ c ∧ c ≤ '9' then some (c.toNat - 48)
  else if 'a' ≤ c ∧ c ≤ 'f' then some (c.toNat - 87)
  else if 'A' ≤ c ∧ c ≤ 'F' then some (c.toNat - 55)
  else none

/-- The number of four hexadecimal digits. -/
def hexQuad? (a b c d : Char) : Option Nat := do
  let a ← hexDigit? a
  let b ← hexDigit? b
  let c ← hexDigit? c
  let d ← hexDigit? d
  return ((a * 16 + b) * 16 + c) * 16 + d

/-- A unit of a text in quotes: a character, or a number written as an escape. -/
inductive TextUnit
  | char (c : Char)
  | escape (n : Nat)

/-- The first half of a surrogate pair. -/
def isHighSurrogate (n : Nat) : Bool := 0xD800 ≤ n && n < 0xDC00

/-- The second half of a surrogate pair. -/
def isLowSurrogate (n : Nat) : Bool := 0xDC00 ≤ n && n < 0xE000

/-- The characters of units; nothing if a surrogate has no partner. -/
def joinUnits : List TextUnit → Option (List Char)
  | [] => some []
  | .char c :: rest => (joinUnits rest).map (c :: ·)
  | .escape n :: .escape m :: rest =>
    if isHighSurrogate n then
      if isLowSurrogate m then
        (joinUnits rest).map
          (Char.ofNat (0x10000 + (n - 0xD800) * 1024 + (m - 0xDC00)) :: ·)
      else none
    else if isLowSurrogate n then none
    else (joinUnits (.escape m :: rest)).map (Char.ofNat n :: ·)
  | .escape n :: rest =>
    if isHighSurrogate n || isLowSurrogate n then none
    else (joinUnits rest).map (Char.ofNat n :: ·)

/-- Units less a first half at the end, which may still find its partner. -/
def withoutPending (units : List TextUnit) : List TextUnit :=
  match units.getLast? with
  | some (.escape n) => if isHighSurrogate n then units.dropLast else units
  | _ => units

/-- How a text in quotes ends. -/
inductive TextEnd
  | closed (rest : List Char)
  | broken (fault : Fault)

/-- What an escape that wants four hexadecimal digits and has none does to the text:
with fewer than four bytes left it ends too early. -/
def quadFault (s : List Char) : Fault :=
  if (String.ofList s).utf8ByteSize < 4 then .truncated else .malformed

/-- The character that an escape of one letter stands for. -/
def escapeLetter? : Char → Option Char
  | '"' => some '"'
  | '\\' => some '\\'
  | '/' => some '/'
  | 'b' => some '\x08'
  | 'f' => some '\x0c'
  | 'n' => some '\n'
  | 'r' => some '\r'
  | 't' => some '\t'
  | _ => none

/-- The units of a text after its opening quote. -/
def textUnits : List Char → List TextUnit × TextEnd
  | [] => ([], .broken .truncated)
  | '"' :: rest => ([], .closed rest)
  | ['\\'] => ([], .broken .truncated)
  | '\\' :: 'u' :: a :: b :: c :: d :: rest =>
    match hexQuad? a b c d with
    | some n =>
      let (units, ending) := textUnits rest
      (.escape n :: units, ending)
    | none => ([], .broken (quadFault (a :: b :: c :: d :: rest)))
  | '\\' :: 'u' :: rest => ([], .broken (quadFault rest))
  | '\\' :: e :: rest =>
    match escapeLetter? e with
    | some c =>
      let (units, ending) := textUnits rest
      (.char c :: units, ending)
    | none => ([], .broken .malformed)
  | c :: rest =>
    if c.toNat < 32 then ([], .broken .malformed)
    else
      let (units, ending) := textUnits rest
      (.char c :: units, ending)

/-- A tree and what follows it. -/
abbrev Reading (α : Type) := α × Option (List Char)

/-- A text after its opening quote. -/
def readText (s : List Char) : Reading Raw :=
  let (units, ending) := textUnits s
  match ending with
  | .closed rest => (.string ((joinUnits units).map String.ofList), some rest)
  | .broken fault =>
    match joinUnits (withoutPending units) with
    | some _ => (.broken fault fault fault, none)
    | none => (.broken .malformed fault .malformed, none)

/-- The value of a decimal digit. -/
def digitOf (c : Char) : Nat := c.toNat - 48

/-- Decimal digits at the start of a text, and what follows them. -/
def takeDigits (s : List Char) : List Nat × List Char :=
  ((s.takeWhile Char.isDigit).map digitOf, s.dropWhile Char.isDigit)

/-- A numeral that lacks digits: at the end of the text a reader sees it cut short. -/
def lacksDigits (rest : List Char) : Reading Raw :=
  if rest.isEmpty then (.broken .truncated .malformed .malformed, none)
  else (.malformed, none)

/-- The exponent of a numeral and what ends it. -/
def readExponent (negative : Bool) (whole : List Nat) (fraction : Option (List Nat))
    (s : List Char) : Reading Raw :=
  let finish (exponent : Option (Bool × List Nat)) (rest : List Char) : Reading Raw :=
    (.number (Numeral.value ⟨negative, whole, fraction, exponent⟩), some rest)
  match s with
  | e :: rest =>
    if e = 'e' || e = 'E' then
      let (down, rest) :=
        match rest with
        | '+' :: rest => (false, rest)
        | '-' :: rest => (true, rest)
        | rest => (false, rest)
      let (digits, after) := takeDigits rest
      if digits.isEmpty then lacksDigits after else finish (some (down, digits)) after
    else finish none s
  | [] => finish none s

/-- A numeral. -/
def readNumber (s : List Char) : Reading Raw :=
  let (negative, s) :=
    match s with
    | '-' :: rest => (true, rest)
    | rest => (false, rest)
  let (whole, rest) := takeDigits s
  if whole.isEmpty then lacksDigits rest
  else if whole.head? = some 0 && 1 < whole.length then (.malformed, none)
  else
    match rest with
    | '.' :: rest =>
      let (digits, after) := takeDigits rest
      if digits.isEmpty then lacksDigits after
      else readExponent negative whole (some digits) after
    | rest => readExponent negative whole none rest

/-- The rest of a word whose first letter has been seen.  For one who wants a name, a
text that ends within the word is at fault by `naming`. -/
def readWord (tree : Raw) (naming : Fault) : List Char → List Char → Reading Raw
  | [], rest => (tree, some rest)
  | _ :: _, [] => (.broken .truncated .truncated naming, none)
  | w :: word, c :: rest =>
    if w = c then readWord tree naming word rest else (.malformed, none)

mutual

/-- A value, after white space.  The fuel bounds the number of steps; the length of
the text is enough. -/
def readValue (fuel : Nat) (s : List Char) : Reading Raw :=
  match fuel with
  | 0 => (.malformed, none)
  | fuel + 1 =>
    match afterSpace s with
    | [] => (.truncated, none)
    | '"' :: rest => readText rest
    | '[' :: rest =>
      let (items, after) := readItems fuel true rest
      (.array items, after)
    | '\x7b' :: rest =>
      let (members, after) := readMembers fuel true rest
      (.object members, after)
    | 'n' :: rest => readWord .null .truncated ['u', 'l', 'l'] rest
    | 't' :: rest => readWord (.bool true) .malformed ['r', 'u', 'e'] rest
    | 'f' :: rest => readWord (.bool false) .malformed ['a', 'l', 's', 'e'] rest
    | c :: rest =>
      if c = '-' || c.isDigit then readNumber (c :: rest)
      else (.malformed, none)

/-- The items of an array up to its end; at the start no comma is wanted. -/
def readItems (fuel : Nat) (start : Bool) (s : List Char) : Reading Raw.Items :=
  match fuel with
  | 0 => (.broken .malformed, none)
  | fuel + 1 =>
    match afterSpace s with
    | [] => (.broken .truncated, none)
    | ']' :: rest => (.close, some rest)
    | c :: rest =>
      if start || c = ',' then
        let (head, after) := readValue fuel (if start then c :: rest else rest)
        match after with
        | none => (.item head .close, none)
        | some after =>
          let (items, after) := readItems fuel false after
          (.item head items, after)
      else (.broken .malformed, none)

/-- The members of an object up to its end; at the start no comma is wanted. -/
def readMembers (fuel : Nat) (start : Bool) (s : List Char) : Reading Raw.Members :=
  match fuel with
  | 0 => (.broken .malformed .malformed, none)
  | fuel + 1 =>
    match afterSpace s with
    | [] => (.broken .truncated .truncated, none)
    | '\x7d' :: rest => (.close, some rest)
    | c :: rest =>
      if start || c = ',' then readMember fuel (if start then c :: rest else rest)
      else (.broken .malformed .malformed, none)

/-- A member and those after it. -/
def readMember (fuel : Nat) (s : List Char) : Reading Raw.Members :=
  match fuel with
  | 0 => (.broken .malformed .malformed, none)
  | fuel + 1 =>
    match afterSpace s with
    | [] => (.broken .truncated .malformed, none)
    | '"' :: rest =>
      match readText rest with
      | (.string text, some rest) =>
        let key : Raw.Key :=
          match text with
          | some text => .text text
          | none => .unpaired
        match afterSpace rest with
        | [] => (.member key .truncated .close, none)
        | ':' :: rest =>
          let (value, after) := readValue fuel rest
          match after with
          | none => (.member key value .close, none)
          | some after =>
            let (members, after) := readMembers fuel false after
            (.member key value members, after)
        | _ :: _ => (.member key .malformed .close, none)
      | (.broken .malformed .truncated _, _) => (.member .unpaired .truncated .close, none)
      | (.broken reading _ _, _) => (.broken reading .malformed, none)
      | _ => (.broken .malformed .malformed, none)
    | c :: rest => (.member .stray (readValue fuel (c :: rest)).1 .close, none)

end

/-- A text: its tree, and whether something follows it. -/
structure Document where
  tree : Raw
  trailing : Bool

/-- The tree of a text. -/
def readDocument (text : String) : Document :=
  let s := text.toList
  let (tree, after) := readValue (3 * s.length + 3) s
  { tree, trailing := !(afterSpace (after.getD [])).isEmpty }

/-- Refuses what follows the end of a text. -/
def Document.finish (d : Document) : Except Fault Unit :=
  if d.trailing then .error .malformed else .ok ()

/-- The value of a text. -/
def parse (text : String) : Except Fault Json := do
  let document := readDocument text
  let value ← document.tree.value wholeText
  document.finish
  return value

end Statechart.Json
