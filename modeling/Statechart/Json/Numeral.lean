/-
Numbers in JSON text.

A numeral is a sign, whole digits, and perhaps digits after a point and an
exponent.  Whole numbers that fit in 64 bits stay whole.  Any other numeral keeps
as many leading digits as fit in 64 bits and is scaled once by a power of ten.
-/
import Statechart.Json.Basic
import Statechart.Decimal.Reading
import Statechart.Text.Counting

namespace Statechart.Json

/-- The parts of a number in JSON text. -/
structure Numeral where
  negative : Bool
  whole : List Nat
  fraction : Option (List Nat)
  /-- The sign and the digits of the exponent. -/
  exponent : Option (Bool × List Nat)

/-- Appends digits to a number while it fits in 64 bits: the number, and how many
digits went in and how many did not. -/
def absorb (significand : Nat) : List Nat → Nat × Nat × Nat
  | [] => (significand, 0, 0)
  | d :: rest =>
    if significand * 10 + d ≤ Text.wordLimit then
      let (s, taken, left) := absorb (significand * 10 + d) rest
      (s, taken + 1, left)
    else (significand, 0, rest.length + 1)

/-- The number that digits spell. -/
def digitsValue (digits : List Nat) : Nat :=
  digits.foldl (fun n d => n * 10 + d) 0

/-- The largest exponent that is worked out. -/
def largestExponent : Nat := Nat.pow 2 31 - 1

/-- A double with a sign. -/
def signed (negative : Bool) (x : Float) : Number :=
  .float (if negative then -x else x)

/-- The number of a numeral; nothing if it is too large for a double. -/
def Numeral.value (n : Numeral) : Option Number :=
  let (lead, _, beyond) := absorb 0 n.whole
  if n.fraction.isNone && n.exponent.isNone && beyond = 0 then
    if n.negative then
      if 0 < lead && lead ≤ Nat.pow 2 63 then some (.int (-lead))
      else some (signed true (Float.ofNat lead))
    else some (.int lead)
  else
    let (significand, taken, _) := absorb lead (n.fraction.getD [])
    let base : Int := beyond - taken
    match n.exponent with
    | none => (Decimal.scaled significand base).map (signed n.negative)
    | some (negative, digits) =>
      let e := digitsValue digits
      if largestExponent < e then
        if significand ≠ 0 && !negative then none else some (signed n.negative 0.0)
      else
        let exponent := if negative then base - e else base + e
        (Decimal.scaled significand exponent).map (signed n.negative)

end Statechart.Json
