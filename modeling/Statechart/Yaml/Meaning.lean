/-
What plain scalars stand for.

A scalar without quotes is nothing, a truth value, a number or a text, by its spelling
alone.  A text that is written without quotes has to be one that reads as a text.
-/
import Statechart.Decimal.Reading
import Statechart.Yaml.Scalar

namespace Statechart.Yaml

/-- Whether a scalar spells nothing. -/
def isNull (s : String) : Bool :=
  ["", "null", "Null", "NULL", "~"].contains s

/-- The truth value that a scalar spells. -/
def truth? (s : String) : Option Bool :=
  if ["true", "True", "TRUE"].contains s then some true
  else if ["false", "False", "FALSE"].contains s then some false
  else none

/-- The whole number, `limit` at most, that digits to a base spell. -/
def digitsIn? (base limit : Nat) (s : List Char) : Option Nat :=
  let digit? (c : Char) : Option Nat := (hexDigit? c).filter (· < base)
  match s with
  | [] => none
  | s => do
    let digits ← s.mapM digit?
    let n := digits.foldl (fun n d => n * base + d) 0
    if n ≤ limit then some n else none

/-- The whole number, `limit` at most, that stands after the mark of its base. -/
def marked? (limit : Nat) : List Char → Option Nat
  | '0' :: 'x' :: rest => digitsIn? 16 limit rest
  | '0' :: 'o' :: rest => digitsIn? 8 limit rest
  | '0' :: 'b' :: rest => digitsIn? 2 limit rest
  | _ => none

/-- A scalar less a plus sign before it. -/
def afterPlus : List Char → List Char
  | '+' :: rest => rest
  | s => s

/-- Whether digits alone follow a zero at the start, which make up no number. -/
def isPadded : List Char → Bool
  | '0' :: c :: rest => (c :: rest).all Char.isDigit
  | _ => false

/-- The whole number, `limit` at most, that a scalar spells: to the base 10 without zeros
before it, or to another base whose mark stands in front. -/
def whole? (limit : Nat) (s : List Char) : Option Nat :=
  let s := afterPlus s
  (marked? limit s).or (if isPadded s then none else digitsIn? 10 limit s)

/-- The digits at the start of a scalar, as values, and the rest. -/
def takeDigits (s : List Char) : List Nat × List Char :=
  ((s.takeWhile Char.isDigit).map (·.toNat - 48), s.dropWhile Char.isDigit)

/-- The exponent that a scalar ends in; nothing if something else does. -/
def exponent? : List Char → Option Int
  | [] => some 0
  | e :: rest =>
    if e == 'e' || e == 'E' then
      let (down, rest) := match rest with
        | '-' :: rest => (true, rest)
        | rest => (false, afterPlus rest)
      match takeDigits rest with
      | (d :: digits, []) =>
        let n := (d :: digits).foldl (fun n d => n * 10 + d) 0
        some (if down then -Int.ofNat n else Int.ofNat n)
      | _ => none
    else
      none

/-- The magnitude that a decimal numeral without a sign spells: digits, of which some may
stand after a point, and perhaps an exponent. -/
def magnitude? (s : List Char) : Option Float := do
  let (whole, s) := takeDigits s
  let (fraction, s) := match s with
    | '.' :: rest => takeDigits rest
    | s => ([], s)
  let digits := whole ++ fraction
  if digits.isEmpty then none
  let e ← exponent? s
  return Decimal.nearest (digits.foldl (fun n d => n * 10 + d) 0) (e - Int.ofNat fraction.length)

/-- A scalar less a sign before it. -/
def afterSign : List Char → List Char
  | '-' :: rest => rest
  | s => afterPlus s

/-- Whether a scalar spells a number of whatever kind.  A decimal numeral that is too
large for a double spells none, and digits after a zero are taken for none in any case. -/
def isNumber (s : List Char) : Bool :=
  let unsigned := afterSign s
  let limit := if s.head? == some '-' then Nat.pow 2 127 else Nat.pow 2 128 - 1
  (marked? limit unsigned).isSome
    || [".inf", ".Inf", ".INF"].contains (String.ofList unsigned)
    || [".nan", ".NaN", ".NAN"].contains (String.ofList s)
    || ((magnitude? unsigned).map Float.isFinite).getD false

/-- Whether a plain scalar stands for a text, and could not be taken for a number that is
padded with zeros. -/
def isText (s : String) : Bool :=
  let chars := s.toList
  !(isNull s || (truth? s).isSome || isNumber chars || isPadded (afterSign chars))

end Statechart.Yaml
