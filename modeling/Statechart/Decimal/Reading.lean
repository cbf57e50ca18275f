/-
Decimal numerals as doubles.

Two rules are in use.  `nearest` gives the double nearest to the numeral.
`scaled` takes a whole number that fits in 64 bits and multiplies or divides it
once by a power of ten, each of the two operands and the result rounded: that is
nearest for short numerals and may be off in the last place for long ones.
-/

namespace Statechart.Decimal

/-- The double nearest to `digits * 10 ^ exponent`; an even significand wins a tie. -/
def nearest (digits : Nat) (exponent : Int) : Float :=
  let top := ((Nat.repr digits).length : Int) + exponent
  if digits = 0 then 0.0
  else if 310 < top then 1.0 / 0.0
  else if top < -330 then 0.0
  else Float.ofScientific digits (exponent < 0) exponent.natAbs

/-- The double nearest to a power of ten. -/
def powerOfTen (n : Nat) : Float :=
  Float.ofScientific 1 false n

/-- Divides by ten to the three hundred and eighth while the exponent is below the
range of the powers of ten. -/
def scaleDown (fuel : Nat) (x : Float) (down : Nat) : Float :=
  match fuel with
  | 0 => x
  | fuel + 1 =>
    if down ≤ 308 then x / powerOfTen down
    else if x == 0.0 then x
    else scaleDown fuel (x / powerOfTen 308) (down - 308)

/-- The whole number `significand`, scaled by a power of ten; nothing if the result
is too large for a double. -/
def scaled (significand : Nat) (exponent : Int) : Option Float :=
  let x := Float.ofNat significand
  if exponent < 0 then some (scaleDown 4 x exponent.natAbs)
  else if exponent ≤ 308 then
    let y := x * powerOfTen exponent.toNat
    if y.isInf then none else some y
  else if significand = 0 then some x
  else none

end Statechart.Decimal
