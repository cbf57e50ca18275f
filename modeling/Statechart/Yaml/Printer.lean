/-
Scalars as they are written.

A text is written plainly when it reads back as a text, else in single quotes, and in
double quotes when it holds what single quotes cannot.  A text of several lines is a
block.
-/
import Statechart.Yaml.Meaning

namespace Statechart.Yaml

/-- Whether a character can be written as it is. -/
def isPrintable (c : Char) : Bool :=
  c == '\n' || (' ' ≤ c && c ≤ '~')
    || (0xA0 ≤ c.toNat && c.toNat ≤ 0xFFFD && c != '\uFEFF') || 0x10000 ≤ c.toNat

/-- Whether the character after `before` can be mistaken for punctuation. -/
def isIndicator (before : Option Char) (c : Char) (rest : List Char) : Bool :=
  let ends := match rest with
    | [] => true
    | d :: _ => isSpace d
  match before with
  | none =>
    "#,[]\x7b\x7d&*!|>'\"%@\x60".toList.contains c
      || ((c == '?' || c == ':' || c == '-') && ends)
  | some b => (c == ':' && ends) || (c == '#' && isSpace b)

/-- Whether a text holds punctuation after `before`. -/
def hasIndicator (before : Option Char) : List Char → Bool
  | [] => false
  | c :: rest => isIndicator before c rest || hasIndicator (some c) rest

/-- Whether a text begins as the first or the last line of a document does. -/
def beginsWithMarker (s : List Char) : Bool :=
  ['-', '-', '-'].isPrefixOf s || ['.', '.', '.'].isPrefixOf s

/-- Whether some character that matches the first test is next to one that matches the
second. -/
def hasPair (p q : Char → Bool) : List Char → Bool
  | a :: b :: rest => (p a && q b) || hasPair p q (b :: rest)
  | _ => false

/-- How a text is written. -/
def styleOf (s : List Char) : Style :=
  let blank (c : Char) : Bool := c == ' '
  let hidden := !s.all isPrintable
  let spaceBreak := hasPair blank isBreak s
  let breakSpace := hasPair isBreak blank s
  let ends (p : Char → Bool) : Bool := (s.head?.map p).getD false || (s.getLast?.map p).getD false
  if s.contains '\n' then
    if hidden || spaceBreak || (s.getLast?.map blank).getD false then .doubleQuoted else .literal
  else if hidden || spaceBreak || breakSpace then
    .doubleQuoted
  else if !isText (String.ofList s) || ends blank || s.any isBreak || beginsWithMarker s
      || hasIndicator none s then
    .singleQuoted
  else
    .plain

/-- The digits of a number to the base 16, at least `width` of them. -/
def hexText (width n : Nat) : String :=
  let digits := (Nat.toDigits 16 n).map Char.toUpper
  String.ofList (List.replicate (width - digits.length) '0' ++ digits)

/-- A character in double quotes. -/
def doubleQuotedChar (c : Char) : String :=
  match c with
  | '\x00' => "\\0"
  | '\x07' => "\\a"
  | '\x08' => "\\b"
  | '\t' => "\\t"
  | '\n' => "\\n"
  | '\x0b' => "\\v"
  | '\x0c' => "\\f"
  | '\r' => "\\r"
  | '\x1b' => "\\e"
  | '"' => "\\\""
  | '\\' => "\\\\"
  | '\u0085' => "\\N"
  | '\u2028' => "\\L"
  | '\u2029' => "\\P"
  | c =>
    if isPrintable c then c.toString
    else if c.toNat ≤ 0xFF then "\\x" ++ hexText 2 c.toNat
    else if c.toNat ≤ 0xFFFF then "\\u" ++ hexText 4 c.toNat
    else "\\U" ++ hexText 8 c.toNat

/-- A text in single quotes.  Lines after the first are indented, and so is the quote
that stands on a line of its own. -/
def singleQuotedBody (indent : String) (fresh : Bool) : List Char → String
  | [] => if fresh then indent else ""
  | c :: rest =>
    if isBreak c then
      c.toString ++ singleQuotedBody indent true rest
    else
      (if fresh then indent else "") ++ (if c == '\'' then "''" else c.toString)
        ++ singleQuotedBody indent false rest

/-- The lines of a block, each indented. -/
def literalBody (indent : String) (fresh : Bool) : List Char → String
  | [] => ""
  | c :: rest =>
    if isBreak c then
      c.toString ++ literalBody indent true rest
    else
      (if fresh then indent else "") ++ c.toString ++ literalBody indent false rest

/-- The marks of a block: its indentation if that does not show, and what becomes of
the breaks at its end. -/
def literalMarks (s : List Char) : String :=
  let width := match s with
    | c :: _ => if c == ' ' || isBreak c then "2" else ""
    | [] => ""
  let chomp := match s.reverse with
    | [] => "-"
    | [c] => if isBreak c then "+" else "-"
    | c :: b :: _ => if !isBreak c then "-" else if isBreak b then "+" else ""
  width ++ chomp

/-- A text as the value of a key.  Lines after the first are indented by `width`. -/
def writeText (width : Nat) (s : String) : String :=
  let indent := String.ofList (List.replicate width ' ')
  match styleOf s.toList with
  | .plain => s
  | .doubleQuoted => "\"" ++ String.join (s.toList.map doubleQuotedChar) ++ "\""
  | .literal | .folded => "|" ++ literalMarks s.toList ++ "\n" ++ literalBody indent true s.toList
  | .singleQuoted => "'" ++ singleQuotedBody indent false s.toList ++ "'"

end Statechart.Yaml
