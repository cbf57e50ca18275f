/-
The fewest decimal digits that read back as a given binary number.

A positive binary number is `m * 2 ^ q`; the reals that round to it form an
interval around it, whose ends belong to it exactly when `m` is even.  On the
grid of multiples of `10 ^ k` only the two neighbours of the number have to be
tried: if any point of the grid lies in the interval, one of them does.  The
coarsest grid with a hit gives the digits; of two hits the nearer is taken, and
of two equally near ones the one that the `Tie` names.
-/

namespace Statechart.Decimal

/-- Which of two equally near decimals is taken. -/
inductive Tie
  | toEven
  | upward
deriving DecidableEq

/-- The decimal `digits * 10 ^ exponent`. -/
structure Digits where
  digits : Nat
  exponent : Int
deriving DecidableEq

/-- The binary number `significand * 2 ^ exponent`; `atEdge` says that the numbers
below it lie twice as dense as those above it. -/
structure Binary where
  significand : Nat
  exponent : Int
  atEdge : Bool
deriving DecidableEq

/-- The magnitude of a finite double. -/
def Binary.ofFloat (x : Float) : Binary :=
  let bits := x.toBits.toNat
  let hidden := Nat.pow 2 52
  let biased := bits / hidden % Nat.pow 2 11
  let fraction := bits % hidden
  if biased = 0 then ⟨fraction, -1074, false⟩
  else ⟨fraction + hidden, Int.ofNat biased - 1075, fraction = 0 && biased ≠ 1⟩

/-- A number and the ends of the interval of reals that round to it, over one
denominator. -/
structure Interval where
  low : Nat
  value : Nat
  high : Nat
  denominator : Nat
  closed : Bool

/-- The reals that round to a binary number. -/
def Binary.interval (b : Binary) : Interval :=
  let unit := b.exponent - 2
  let up := Nat.pow 2 unit.toNat
  { low := (4 * b.significand - (if b.atEdge then 1 else 2)) * up
    value := 4 * b.significand * up
    high := (4 * b.significand + 2) * up
    denominator := Nat.pow 2 (-unit).toNat
    closed := b.significand % 2 = 0 }

/-- Whether `c` steps of the given size lie in the interval, when its ends and
value are multiplied by `scale`. -/
def Interval.covers (i : Interval) (scale step c : Nat) : Bool :=
  if i.closed then i.low * scale ≤ c * step && c * step ≤ i.high * scale
  else i.low * scale < c * step && c * step < i.high * scale

/-- The multiple of `10 ^ k` next to the value that lies in the interval, if any. -/
def Interval.onGrid (i : Interval) (tie : Tie) (k : Int) : Option Nat :=
  let scale := Nat.pow 10 (-k).toNat
  let step := Nat.pow 10 k.toNat * i.denominator
  let value := i.value * scale
  let below := value / step
  let above := below + 1
  match i.covers scale step below, i.covers scale step above with
  | false, false => none
  | true, false => some below
  | false, true => some above
  | true, true =>
    let down := value - below * step
    let up := above * step - value
    if down < up then some below
    else if up < down then some above
    else
      match tie with
      | .upward => some above
      | .toEven => some (if below % 2 = 0 then below else above)

/-- The number of decimal digits of a natural number. -/
def digitCount (n : Nat) : Nat :=
  (Nat.repr n).length

/-- The exponent of the leading decimal digit of `value / denominator`. -/
def leadingExponent (value denominator : Nat) : Int :=
  let guess : Int := (digitCount value : Int) - (digitCount denominator : Int)
  if denominator * Nat.pow 10 guess.toNat ≤ value * Nat.pow 10 (-guess).toNat then guess
  else guess - 1

/-- Moves zeros at the end of the digits into the exponent. -/
def Digits.trim (d : Digits) : Digits :=
  if h : 0 < d.digits ∧ d.digits % 10 = 0 then
    Digits.trim ⟨d.digits / 10, d.exponent + 1⟩
  else d
termination_by d.digits
decreasing_by exact Nat.div_lt_self h.1 (by decide)

/-- The digits of a positive binary number.  Seventeen digits always tell two
doubles apart, so no finer grid is needed. -/
def shortest (tie : Tie) (b : Binary) : Digits :=
  let i := b.interval
  let top := leadingExponent i.value i.denominator
  let hit := (List.range 17).findSome? fun n : Nat =>
    let k := top - Int.ofNat n
    (i.onGrid tie k).map (Digits.mk · k)
  (hit.getD ⟨0, 0⟩).trim

end Statechart.Decimal
