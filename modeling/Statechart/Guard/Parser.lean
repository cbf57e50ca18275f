/-
Guard expressions from text.

A comparison binds tightest, then `!`, then `&&`, then `||`; the last two group to
the left.  White space may stand between tokens.  Every reader takes the rest of
the text and gives what it read with the rest after it; the fuel that the readers
share bounds the steps and is computed from the length of the text.
-/
import Statechart.Guard.Expr
import Statechart.Decimal.Style
import Statechart.Decimal.Reading
import Statechart.Text.Blank
import Statechart.Text.Letter

namespace Statechart

/-- Why a text is no guard expression. -/
inductive GuardFault
  | empty
  /-- An expression ends, and something else follows at this byte. -/
  | leftOver (position : Nat) (rest : String)
  | unclosed
  | noField
  | badField (path : String)
  | outOfRange (value : Float)
  | openText
  | badNumber (text : String)

namespace GuardFault

/-- The wording of a fault. -/
def message : GuardFault → String
  | .empty => "empty guard expression"
  | .leftOver position rest =>
    "unexpected input at position " ++ Nat.repr position ++ ": '" ++ rest ++ "'"
  | .unclosed => "expected ')'"
  | .noField => "field must start with 'ctx.' or 'event.'"
  | .badField path => "invalid field name: '" ++ path ++ "'"
  | .outOfRange value => "number out of range: " ++ Decimal.plain.format value
  | .openText => "unterminated string"
  | .badNumber text => "invalid number: '" ++ text ++ "'"

end GuardFault

namespace GuardExpr

/-- The text from its first token on. -/
def skipBlanks (s : List Char) : List Char :=
  s.dropWhile Text.isBlank

/-- Whether a character may stand in the path of a field. -/
def isPathChar (c : Char) : Bool :=
  Text.isNameChar c || c == '.'

/-- The path of a field whose source is known. -/
def readPath (source : FieldSource) (s : List Char) : Except GuardFault (Field × List Char) :=
  let path := s.takeWhile isPathChar
  if path.isEmpty || path.head? == some '.' || path.getLast? == some '.' then
    .error (.badField (String.ofList path))
  else
    .ok (⟨source, String.ofList path⟩, s.dropWhile isPathChar)

/-- A field. -/
def readField (s : List Char) : Except GuardFault (Field × List Char) :=
  let s := skipBlanks s
  match Text.afterStart? "ctx.".toList s with
  | some rest => readPath .context rest
  | none =>
    match Text.afterStart? "event.".toList s with
    | some rest => readPath .event rest
    | none => .error .noField

/-- The parts of a decimal numeral at the start of a text. -/
structure Numeral where
  negative : Bool
  whole : List Char
  /-- The digits after a point, if there is a point. -/
  fraction : Option (List Char)

/-- The text of a numeral. -/
def Numeral.text (n : Numeral) : List Char :=
  (if n.negative then ['-'] else []) ++ n.whole ++
    (match n.fraction with
     | some digits => '.' :: digits
     | none => [])

/-- The number that digits spell. -/
def digitsValue (digits : List Char) : Nat :=
  digits.foldl (fun n c => n * 10 + (c.toNat - 48)) 0

/-- The double nearest to a numeral; nothing without a digit. -/
def Numeral.value? (n : Numeral) : Option Float :=
  let digits := n.whole ++ n.fraction.getD []
  if digits.isEmpty then none
  else
    let x := Decimal.nearest (digitsValue digits) (-Int.ofNat (n.fraction.getD []).length)
    some (if n.negative then -x else x)

/-- A numeral, as long as it goes on. -/
def takeNumeral (s : List Char) : Numeral × List Char :=
  let (negative, s) :=
    match s with
    | '-' :: rest => (true, rest)
    | s => (false, s)
  let whole := s.takeWhile Char.isDigit
  match s.dropWhile Char.isDigit with
  | '.' :: rest =>
    (⟨negative, whole, some (rest.takeWhile Char.isDigit)⟩, rest.dropWhile Char.isDigit)
  | rest => (⟨negative, whole, none⟩, rest)

/-- A number. -/
def readNumber (s : List Char) : Except GuardFault (Float × List Char) :=
  let (numeral, rest) := takeNumeral (skipBlanks s)
  match numeral.value? with
  | some x => .ok (x, rest)
  | none => .error (.badNumber (String.ofList numeral.text))

/-- The characters of a text up to its closing quote; a backslash makes the character
after it an ordinary one. -/
def readText : List Char → Except GuardFault (List Char × List Char)
  | [] => .error .openText
  | '"' :: rest => .ok ([], rest)
  | ['\\'] => .error .openText
  | '\\' :: c :: rest => do
    let (text, rest) ← readText rest
    return (c :: text, rest)
  | c :: rest => do
    let (text, rest) ← readText rest
    return (c :: text, rest)

/-- A finite number as a literal. -/
def finiteLiteral (x : Float) (rest : List Char) : Except GuardFault (Literal × List Char) :=
  if x.isFinite then .ok (.number x, rest) else .error (.outOfRange x)

/-- A literal. -/
def readLiteral (s : List Char) : Except GuardFault (Literal × List Char) :=
  let s := skipBlanks s
  match Text.afterStart? "true".toList s with
  | some rest => .ok (.bool true, rest)
  | none =>
    match Text.afterStart? "false".toList s with
    | some rest => .ok (.bool false, rest)
    | none =>
      match Text.afterStart? "null".toList s with
      | some rest => .ok (.null, rest)
      | none =>
        match s with
        | '"' :: rest => do
          let (text, rest) ← readText rest
          return (.string (String.ofList text), rest)
        | s => do
          let (x, rest) ← readNumber s
          finiteLiteral x rest

/-- What follows a field: a comparison, or nothing. -/
def readComparison (field : Field) (s : List Char) : Except GuardFault (GuardExpr × List Char) :=
  match s with
  | '=' :: '=' :: rest => do
    let (value, rest) ← readLiteral rest
    return (.equal field value, rest)
  | '!' :: '=' :: rest => do
    let (value, rest) ← readLiteral rest
    return (.notEqual field value, rest)
  | '>' :: '=' :: rest => do
    let (bound, rest) ← readNumber rest
    return (.compare field .greaterOrEqual bound, rest)
  | '<' :: '=' :: rest => do
    let (bound, rest) ← readNumber rest
    return (.compare field .lessOrEqual bound, rest)
  | '>' :: rest => do
    let (bound, rest) ← readNumber rest
    return (.compare field .greater bound, rest)
  | '<' :: rest => do
    let (bound, rest) ← readNumber rest
    return (.compare field .less bound, rest)
  | s => .ok (.truthy field, s)

mutual

/-- Operands joined by `||`. -/
def readOr (fuel : Nat) (s : List Char) : Except GuardFault (GuardExpr × List Char) :=
  match fuel with
  | 0 => .error .empty
  | fuel + 1 => do
    let (left, rest) ← readAnd fuel s
    readOrTail fuel left (skipBlanks rest)

/-- The operands after `left`. -/
def readOrTail (fuel : Nat) (left : GuardExpr) (s : List Char) :
    Except GuardFault (GuardExpr × List Char) :=
  match fuel with
  | 0 => .error .empty
  | fuel + 1 =>
    match s with
    | '|' :: '|' :: rest => do
      let (right, rest) ← readAnd fuel rest
      readOrTail fuel (.or left right) (skipBlanks rest)
    | s => .ok (left, s)

/-- Operands joined by `&&`. -/
def readAnd (fuel : Nat) (s : List Char) : Except GuardFault (GuardExpr × List Char) :=
  match fuel with
  | 0 => .error .empty
  | fuel + 1 => do
    let (left, rest) ← readOperand fuel s
    readAndTail fuel left (skipBlanks rest)

/-- The operands after `left`. -/
def readAndTail (fuel : Nat) (left : GuardExpr) (s : List Char) :
    Except GuardFault (GuardExpr × List Char) :=
  match fuel with
  | 0 => .error .empty
  | fuel + 1 =>
    match s with
    | '&' :: '&' :: rest => do
      let (right, rest) ← readOperand fuel rest
      readAndTail fuel (.and left right) (skipBlanks rest)
    | s => .ok (left, s)

/-- A negation, an expression in parentheses, or a field and what follows it. -/
def readOperand (fuel : Nat) (s : List Char) : Except GuardFault (GuardExpr × List Char) :=
  match fuel with
  | 0 => .error .empty
  | fuel + 1 =>
    match skipBlanks s with
    | '!' :: rest => do
      let (inner, rest) ← readOperand fuel rest
      return (.not inner, rest)
    | '(' :: rest => do
      let (inner, rest) ← readOr fuel rest
      match skipBlanks rest with
      | ')' :: rest => return (inner, rest)
      | _ => throw .unclosed
    | s => do
      let (field, rest) ← readField s
      readComparison field (skipBlanks rest)

end

/-- The number of bytes of a text. -/
def byteCount (s : List Char) : Nat :=
  (String.ofList s).utf8ByteSize

/-- More steps than the readers take on a text: each character is part of at most one
token, and four steps lead from one token to the next. -/
def fuelFor (s : List Char) : Nat :=
  4 * s.length + 4

/-- The expression that a text spells, with white space around it or none. -/
def parseChars (text : List Char) : Except GuardFault GuardExpr :=
  let s := Text.trimBoth Text.isBlank text
  if s.isEmpty then .error .empty
  else do
    let (e, rest) ← readOr (fuelFor s) s
    let rest := skipBlanks rest
    if rest.isEmpty then return e
    else throw (.leftOver (byteCount s - byteCount rest) (String.ofList rest))

/-- The expression that a text spells. -/
def parse (text : String) : Except GuardFault GuardExpr :=
  parseChars text.toList

end GuardExpr

end Statechart
