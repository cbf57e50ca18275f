/-
Whole numbers in plain decimal text.
-/

namespace Statechart.Text

/-- The largest number of 64 bits. -/
def wordLimit : Nat := Nat.pow 2 64 - 1

/-- The value of a decimal digit. -/
def digit? (c : Char) : Option Nat :=
  if c.isDigit then some (c.toNat - 48) else none

/-- The number that digits alone spell, after `n`. -/
def digits? (n : Nat) : List Char → Option Nat
  | [] => some n
  | c :: rest =>
    match digit? c with
    | some d => digits? (n * 10 + d) rest
    | none => none

/-- The number of at most 64 bits that a text spells: digits, with a plus sign before
them or none. -/
def word? (s : List Char) : Option Nat :=
  let digits :=
    match s with
    | '+' :: rest => rest
    | s => s
  match digits with
  | [] => none
  | c :: rest =>
    match digits? 0 (c :: rest) with
    | some n => if n ≤ wordLimit then some n else none
    | none => none

end Statechart.Text
