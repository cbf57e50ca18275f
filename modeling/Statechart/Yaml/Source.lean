/-
A document as characters with their places.

The line breaks of a document are brought to one form before anything else looks at
it, so that every break is one character.
-/

namespace Statechart.Yaml

/-- A character of a document, and where it stands. -/
structure Cell where
  char : Char
  line : Nat
  column : Nat
  /-- How many bytes stand before it. -/
  offset : Nat

/-- Whether a character ends a line. -/
def isBreak (c : Char) : Bool :=
  c == '\n' || c == '\u2028' || c == '\u2029'

/-- Whether a character separates words. -/
def isSpace (c : Char) : Bool :=
  c == ' ' || c == '\t' || isBreak c

/-- Whether a document may hold a character: no control character but tab and the line
breaks, and no noncharacter at the end of the first plane. -/
def isAllowed (c : Char) : Bool :=
  c == '\t' || c == '\n' || c == '\r' || c == '\u0085' || (' ' ≤ c && c ≤ '~')
    || (0xA0 ≤ c.toNat && c.toNat ≤ 0xFFFD) || 0x10000 ≤ c.toNat

/-- The characters of a text with their places, when the first stands at the given
one; nothing if some character is not allowed. -/
def locate (line column offset : Nat) : List Char → Option (List Cell)
  | [] => some []
  | '\r' :: '\n' :: rest => do
    let cells ← locate (line + 1) 0 (offset + 2) rest
    return ⟨'\n', line, column, offset⟩ :: cells
  | c :: rest =>
    if !isAllowed c then
      none
    else if c == '\r' || c == '\u0085' then do
      let cells ← locate (line + 1) 0 (offset + c.utf8Size) rest
      return ⟨'\n', line, column, offset⟩ :: cells
    else if isBreak c then do
      let cells ← locate (line + 1) 0 (offset + c.utf8Size) rest
      return ⟨c, line, column, offset⟩ :: cells
    else do
      let cells ← locate line (column + 1) (offset + c.utf8Size) rest
      return ⟨c, line, column, offset⟩ :: cells

/-- The characters of a document with their places. -/
def cells (s : String) : Option (List Cell) :=
  locate 0 0 0 s.toList

/-- Whether the first character matches, if there is one. -/
def startsWith (p : Char → Bool) : List Cell → Bool
  | [] => false
  | c :: _ => p c.char

/-- Whether a word ends here: at white space or at the end of the document. -/
def atEnd : List Cell → Bool
  | [] => true
  | c :: _ => isSpace c.char

/-- Whether a line ends here. -/
def atLineEnd : List Cell → Bool
  | [] => true
  | c :: _ => isBreak c.char

/-- Whether three characters `mark` make up a word at the start of a line here. -/
def atMarker (mark : Char) : List Cell → Bool
  | a :: b :: c :: rest =>
    a.column == 0 && a.char == mark && b.char == mark && c.char == mark && atEnd rest
  | _ => false

/-- Whether a document starts or ends here. -/
def atBoundary (s : List Cell) : Bool :=
  atMarker '-' s || atMarker '.' s

/-- The characters at the start that match, and the rest. -/
def takeChars (p : Char → Bool) (s : List Cell) : List Char × List Cell :=
  ((s.takeWhile fun c => p c.char).map Cell.char, s.dropWhile fun c => p c.char)

/-- Less the blanks at the start. -/
def dropBlanks (s : List Cell) : List Cell :=
  s.dropWhile fun c => c.char == ' ' || c.char == '\t'

/-- The end of the line, after blanks and a comment; nothing if something else stands
before it. -/
def endOfLine (s : List Cell) : Option (List Cell) :=
  let s := dropBlanks s
  let s := if startsWith (· == '#') s then s.dropWhile (fun c => !isBreak c.char) else s
  if atLineEnd s then some s else none

end Statechart.Yaml
