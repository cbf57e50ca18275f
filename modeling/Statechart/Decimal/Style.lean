/-
How the digits of a double are laid out as text.

`Style` holds the decisions that a format makes: which exponents are written
without an exponent part, what follows a whole number, and which way a tie of
digits goes.
-/
import Statechart.Decimal.Shortest

namespace Statechart.Decimal

/-- The decisions of a number format. -/
structure Style where
  /-- Which of two equally near decimals is written. -/
  tie : Tie
  /-- Whether a number whose leading digit has this exponent is written in full. -/
  positional : Int → Bool
  /-- What is written after a whole number in full. -/
  wholeTail : String

/-- A number of zeros. -/
def zeros (n : Nat) : String :=
  String.ofList (List.replicate n '0')

/-- The digits in full, with the point at its place. -/
def Style.inFull (s : Style) (d : Digits) : String :=
  let text := (Nat.repr d.digits).toList
  let point := (text.length : Int) + d.exponent
  if point ≤ 0 then
    "0." ++ zeros (-point).toNat ++ String.ofList text
  else if text.length ≤ point then
    String.ofList text ++ zeros d.exponent.toNat ++ s.wholeTail
  else
    String.ofList (text.take point.toNat) ++ "." ++ String.ofList (text.drop point.toNat)

/-- One digit, the others after a point, and a signed exponent. -/
def scientific (d : Digits) : String :=
  let text := (Nat.repr d.digits).toList
  let exponent := (text.length : Int) + d.exponent - 1
  let fraction := text.drop 1
  String.ofList (text.take 1)
    ++ (if fraction.isEmpty then "" else "." ++ String.ofList fraction)
    ++ (if exponent < 0 then "e-" else "e+") ++ Nat.repr exponent.natAbs

/-- The text of the magnitude of a finite double. -/
def Style.magnitude (s : Style) (x : Float) : String :=
  let b := Binary.ofFloat x
  if b.significand = 0 then "0" ++ s.wholeTail
  else
    let d := shortest s.tie b
    if s.positional ((digitCount d.digits : Int) + d.exponent - 1) then s.inFull d
    else scientific d

/-- The text of a double. -/
def Style.format (s : Style) (x : Float) : String :=
  if x.isNaN then "NaN"
  else
    let sign := if x.toBits.toNat / Nat.pow 2 63 = 1 then "-" else ""
    if x.isInf then sign ++ "inf" else sign ++ s.magnitude x

/-- Numbers in full, whole ones without a point. -/
def plain : Style where
  tie := .upward
  positional := fun _ => true
  wholeTail := ""

end Statechart.Decimal
