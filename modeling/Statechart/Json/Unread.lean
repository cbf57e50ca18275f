/-
Values that nobody reads.

Of a value that is only passed over, the grammar alone counts: numbers may be out of range,
surrogates without a partner, and arrays and objects may stand inside each other without
limit.
-/
import Statechart.Json.Flaw

namespace Statechart.Json

/-- Passes over the rest of an escape in a text that nobody reads. -/
def skipEscape : List Char → Passing
  | [] => flaw .endInText []
  | 'u' :: rest => do return (← passQuad rest).2
  | c :: rest => if (escapeLetter? c).isSome then .ok rest else flaw .badEscape rest

/-- Passes over a text after its opening quote.  The fuel bounds the number of steps; the
length of the text is enough. -/
def skipText (fuel : Nat) (s : List Char) : Passing :=
  match fuel, s with
  | 0, _ => flaw .endInText []
  | _ + 1, [] => flaw .endInText []
  | _ + 1, '"' :: rest => .ok rest
  | fuel + 1, '\\' :: rest => do skipText fuel (← skipEscape rest)
  | fuel + 1, c :: rest =>
    if c.toNat < 32 then flaw .controlCharacter (c :: rest) else skipText fuel rest

/-- Passes over the digits after a mark, of which there must be some. -/
def skipDigits (s : List Char) : Passing :=
  match takeDigits s with
  | ([], rest) => flaw .badNumber (rest.drop 1)
  | (_, rest) => .ok rest

/-- Passes over the exponent of a numeral, if it has one. -/
def skipExponent : List Char → Passing
  | [] => .ok []
  | e :: rest =>
    if e = 'e' || e = 'E' then
      match rest with
      | '+' :: rest => skipDigits rest
      | '-' :: rest => skipDigits rest
      | rest => skipDigits rest
    else .ok (e :: rest)

/-- Passes over a numeral after its sign. -/
def skipNumber (s : List Char) : Passing :=
  match takeDigits s with
  | ([], rest) => flaw .badNumber (rest.drop 1)
  | (0 :: _ :: _, _) => flaw .badNumber (s.drop 2)
  | (_, '.' :: rest) => do skipExponent (← skipDigits rest)
  | (_, rest) => skipExponent rest

mutual

/-- Passes over a value.  The fuel bounds the number of steps. -/
def skipValue (fuel : Nat) (s : List Char) : Passing :=
  match fuel with
  | 0 => flaw .endInValue []
  | fuel + 1 =>
    match afterSpace s with
    | [] => flaw .endInValue []
    | '"' :: rest => skipText rest.length.succ rest
    | '[' :: rest => skipItems fuel true rest
    | '\x7b' :: rest => skipMembers fuel true rest
    | 'n' :: rest => passWord ['u', 'l', 'l'] rest
    | 't' :: rest => passWord ['r', 'u', 'e'] rest
    | 'f' :: rest => passWord ['a', 'l', 's', 'e'] rest
    | '-' :: rest => skipNumber rest
    | c :: rest => if c.isDigit then skipNumber (c :: rest) else flaw .wantedValue rest

/-- Passes over the items of an array up to its end; at the start no comma is wanted. -/
def skipItems (fuel : Nat) (start : Bool) (s : List Char) : Passing :=
  match fuel with
  | 0 => flaw .endInList []
  | fuel + 1 =>
    match afterSpace s with
    | [] => flaw .endInList []
    | ']' :: rest => .ok rest
    | c :: rest =>
      if start then do
        skipItems fuel false (← skipValue fuel (c :: rest))
      else if c = ',' then do
        skipItems fuel false (← skipValue fuel rest)
      else flaw .wantedItemOrEnd rest

/-- Passes over the members of an object up to its end; at the start no comma is wanted. -/
def skipMembers (fuel : Nat) (start : Bool) (s : List Char) : Passing :=
  match fuel with
  | 0 => flaw .endInObject []
  | fuel + 1 =>
    match afterSpace s with
    | [] => flaw .endInObject []
    | '\x7d' :: rest => .ok rest
    | c :: rest =>
      if start then skipMember fuel (c :: rest)
      else if c = ',' then skipMember fuel rest
      else flaw .wantedMemberOrEnd rest

/-- Passes over a member and those after it. -/
def skipMember (fuel : Nat) (s : List Char) : Passing :=
  match fuel with
  | 0 => flaw .endInObject []
  | fuel + 1 =>
    match afterSpace s with
    | [] => flaw .endInObject []
    | '"' :: rest => do
      let s ← passColon (← skipText rest.length.succ rest)
      skipMembers fuel false (← skipValue fuel s)
    | _ :: rest => flaw .keyIsNoText rest

end

end Statechart.Json
