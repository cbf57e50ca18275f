/-
The texts of scalars.

Between two words of a scalar that spans lines stands a gap.  One line break in a gap
stands for a space, and each further one for itself.
-/
import Statechart.Yaml.Source

namespace Statechart.Yaml

/-- How a scalar is written. -/
inductive Style
  | plain
  | singleQuoted
  | doubleQuoted
  | literal
  | folded
  deriving DecidableEq

/-- The white space between two words of a scalar. -/
inductive Gap
  /-- Blanks on one line. -/
  | blanks (text : List Char)
  /-- Line breaks: the first, unless it is escaped, and the others. -/
  | breaks (first : Option Char) (more : List Char)

namespace Gap

/-- No white space. -/
def empty : Gap := .blanks []

/-- Whether a line ends in a gap. -/
def isBroken : Gap → Bool
  | .blanks _ => false
  | .breaks _ _ => true

/-- Whether there is no white space in a gap. -/
def isEmpty : Gap → Bool
  | .blanks text => text.isEmpty
  | .breaks _ _ => false

/-- A gap with one more character.  Blanks around a line break are dropped. -/
def add (g : Gap) (c : Char) : Gap :=
  match g, isBreak c with
  | .blanks _, true => .breaks (some c) []
  | .breaks first more, true => .breaks first (more ++ [c])
  | .blanks text, false => .blanks (text ++ [c])
  | .breaks first more, false => .breaks first more

/-- The text a gap stands for. -/
def text : Gap → List Char
  | .blanks text => text
  | .breaks (some '\n') [] => [' ']
  | .breaks (some '\n') more => more
  | .breaks first more => first.toList ++ more

/-- A reversed text, followed by a gap. -/
def after (g : Gap) (text : List Char) : List Char :=
  g.text.reverse ++ text

end Gap

/-! ### Scalars without quotes -/

/-- Whether a character is punctuation of a flow collection. -/
def isFlowMark (c : Char) : Bool :=
  c == ',' || c == '[' || c == ']' || c == '\x7b' || c == '\x7d'

/-- Whether the word of a plain scalar ends here. -/
def endsPlain (flow : Bool) (c : Cell) (rest : List Cell) : Bool :=
  (c.char == ':' && atEnd rest) || (flow && isFlowMark c.char)

/-- Reads a plain scalar on, whose lines have to be indented by `margin`, after a
reversed text and a gap.  Tells whether a line ended after the last word. -/
def plainText (flow : Bool) (margin : Nat) (text : List Char) (gap : Gap) :
    List Cell → Option (List Char × Bool × List Cell)
  | [] => some (text.reverse, gap.isBroken, [])
  | c :: rest =>
    if isSpace c.char then
      if gap.isBroken && c.char == '\t' && c.column < margin then
        none
      else
        plainText flow margin text (gap.add c.char) rest
    else if atBoundary (c :: rest) || (!gap.isEmpty && c.char == '#')
        || (gap.isBroken && !flow && c.column < margin) then
      some (text.reverse, gap.isBroken, c :: rest)
    else if flow && c.char == ':' && startsWith (fun d => isFlowMark d || d == '?') rest then
      none
    else if endsPlain flow c rest then
      some (text.reverse, gap.isBroken, c :: rest)
    else
      plainText flow margin (c.char :: gap.after text) .empty rest

/-! ### Scalars in quotes -/

/-- Reads a scalar in single quotes on, in which a quote is written twice. -/
def singleQuotedText (text : List Char) (gap : Gap) :
    List Cell → Option (List Char × List Cell)
  | [] => none
  | c :: rest =>
    if isSpace c.char then
      singleQuotedText text (gap.add c.char) rest
    else if atBoundary (c :: rest) then
      none
    else if c.char == '\'' then
      match rest with
      | [] => some ((gap.after text).reverse, [])
      | d :: rest =>
        if d.char == '\'' then
          singleQuotedText ('\'' :: gap.after text) .empty rest
        else
          some ((gap.after text).reverse, d :: rest)
    else
      singleQuotedText (c.char :: gap.after text) .empty rest

/-- The character that one letter after a backslash stands for. -/
def escapedChar? : Char → Option Char
  | '0' => some '\x00'
  | 'a' => some '\x07'
  | 'b' => some '\x08'
  | 't' => some '\t'
  | '\t' => some '\t'
  | 'n' => some '\n'
  | 'v' => some '\x0b'
  | 'f' => some '\x0c'
  | 'r' => some '\r'
  | 'e' => some '\x1b'
  | ' ' => some ' '
  | '"' => some '"'
  | '/' => some '/'
  | '\\' => some '\\'
  | 'N' => some '\u0085'
  | '_' => some '\u00a0'
  | 'L' => some '\u2028'
  | 'P' => some '\u2029'
  | _ => none

/-- How many digits follow a letter after a backslash. -/
def escapedDigits? : Char → Option Nat
  | 'x' => some 2
  | 'u' => some 4
  | 'U' => some 8
  | _ => none

/-- The value of a digit to the base 16. -/
def hexDigit? (c : Char) : Option Nat :=
  if '0' ≤ c && c ≤ '9' then some (c.toNat - 48)
  else if 'a' ≤ c && c ≤ 'f' then some (c.toNat - 87)
  else if 'A' ≤ c && c ≤ 'F' then some (c.toNat - 55)
  else none

/-- The character with a number, if it has one. -/
def charOf? (n : Nat) : Option Char :=
  if h : n.isValidChar then some (Char.ofNatAux n h) else none

/-- Reads a scalar in double quotes on.  The digits of an escape are due when `digits`
is positive, after the number `value`. -/
def doubleQuotedText (text : List Char) (gap : Gap) (digits value : Nat) :
    List Cell → Option (List Char × List Cell)
  | [] => none
  | c :: rest =>
    if digits > 0 then
      match hexDigit? c.char with
      | none => none
      | some d =>
        if digits > 1 then
          doubleQuotedText text gap (digits - 1) (value * 16 + d) rest
        else
          match charOf? (value * 16 + d) with
          | none => none
          | some e => doubleQuotedText (e :: text) gap 0 0 rest
    else if isSpace c.char then
      doubleQuotedText text (gap.add c.char) 0 0 rest
    else if atBoundary (c :: rest) then
      none
    else if c.char == '"' then
      some ((gap.after text).reverse, rest)
    else if c.char == '\\' then
      match rest with
      | [] => none
      | d :: rest =>
        if isBreak d.char then
          doubleQuotedText (gap.after text) (.breaks none []) 0 0 rest
        else
          match escapedChar? d.char, escapedDigits? d.char with
          | some e, _ => doubleQuotedText (e :: gap.after text) .empty 0 0 rest
          | none, some n => doubleQuotedText (gap.after text) .empty n 0 rest
          | none, none => none
    else
      doubleQuotedText (c.char :: gap.after text) .empty 0 0 rest

/-! ### Block scalars -/

/-- What becomes of the line breaks at the end of a block scalar. -/
inductive Chomp
  | strip
  | clip
  | keep
  deriving DecidableEq

/-- The mark for the breaks at the end, if one stands here. -/
def takeChomp : List Cell → Option Chomp × List Cell
  | [] => (none, [])
  | c :: rest =>
    if c.char == '+' then (some .keep, rest)
    else if c.char == '-' then (some .strip, rest)
    else (none, c :: rest)

/-- The width of the indentation, if one stands here; it is not zero. -/
def takeWidth : List Cell → Option (Option Nat × List Cell)
  | [] => some (none, [])
  | c :: rest =>
    if c.char == '0' then none
    else if c.char.isDigit then some (some (c.char.toNat - 48), rest)
    else some (none, c :: rest)

/-- The empty lines before the first line of a block scalar, in reverse, and how far
they are indented. -/
def leadingLines (breaks : List Char) (width : Nat) :
    List Cell → Option (List Char × Nat × List Cell)
  | [] => some (breaks, width, [])
  | c :: rest =>
    if c.char == ' ' then leadingLines breaks (max width (c.column + 1)) rest
    else if c.char == '\t' then none
    else if isBreak c.char then leadingLines (c.char :: breaks) width rest
    else some (breaks, width, c :: rest)

/-- A block scalar as far as it is read. -/
structure BlockText where
  /-- The text, in reverse. -/
  text : List Char
  /-- The break that ended the last line. -/
  ending : Option Char
  /-- The breaks of the empty lines after it, in reverse. -/
  empty : List Char
  /-- Whether the last line started with a blank. -/
  indented : Bool

namespace BlockText

/-- The text with a new line begun by `c`.  When lines are folded, a break between two
lines that start with no blank stands for a space. -/
def begin (b : BlockText) (folded : Bool) (c : Char) : BlockText :=
  let blank := c == ' ' || c == '\t'
  let joined :=
    if folded && b.ending == some '\n' && !b.indented && !blank then
      if b.empty.isEmpty then ' ' :: b.text else b.text
    else
      b.ending.toList ++ b.text
  ⟨c :: (b.empty ++ joined), none, [], blank⟩

/-- The whole text. -/
def finish (b : BlockText) (chomp : Chomp) : List Char :=
  match chomp with
  | .strip => b.text.reverse
  | .clip => (b.ending.toList ++ b.text).reverse
  | .keep => (b.empty ++ (b.ending.toList ++ b.text)).reverse

end BlockText

/-- Reads the lines of a block scalar that are indented by `width`; `inside` tells
whether a line is begun. -/
def blockLines (folded : Bool) (width : Nat) (inside : Bool) (b : BlockText) :
    List Cell → Option (BlockText × List Cell)
  | [] => some (b, [])
  | c :: rest =>
    if inside then
      if isBreak c.char then
        blockLines folded width false { b with ending := some c.char } rest
      else
        blockLines folded width true { b with text := c.char :: b.text } rest
    else if c.char == ' ' && c.column < width then
      blockLines folded width false b rest
    else if c.char == '\t' && c.column < width then
      none
    else if isBreak c.char then
      blockLines folded width false { b with empty := c.char :: b.empty } rest
    else if c.column == width then
      blockLines folded width true (b.begin folded c.char) rest
    else
      some (b, c :: rest)

/-- Reads a block scalar after its mark, whose lines are indented by `margin` at least. -/
def blockText (folded : Bool) (margin : Nat) (s : List Cell) :
    Option (List Char × List Cell) := do
  let (chomp, s) := takeChomp s
  let (width, s) ← takeWidth s
  let (chomp, s) := match chomp with
    | some c => (some c, s)
    | none => takeChomp s
  let s ← endOfLine s
  let s := s.drop 1
  let chomp := chomp.getD .clip
  match width with
  | some n =>
    let (b, rest) ← blockLines folded (margin - 1 + n) false ⟨[], none, [], false⟩ s
    return (b.finish chomp, rest)
  | none =>
    let (breaks, n, s) ← leadingLines [] 0 s
    let (b, rest) ← blockLines folded (max n (max margin 1)) false ⟨[], none, breaks, false⟩ s
    return (b.finish chomp, rest)

end Statechart.Yaml
