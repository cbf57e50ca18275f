/-
Tokens of a document.

Indentation becomes tokens of its own: a block collection is opened where a line is
indented further than the collections around it, and closed where a line is not.  That
a node is the key of a mapping shows only at the colon after it, so a place is left
before each node that may turn out to be one.
-/
import Statechart.Yaml.Scalar

namespace Statechart.Yaml

/-- A token of a document. -/
inductive Token
  /-- A place that is not used. -/
  | unused
  | version (major minor : Nat)
  | tagHandle (handle start : String)
  | documentStart
  | documentEnd
  | blockSequence
  | blockMapping
  | blockEnd
  | flowSequence
  | flowSequenceEnd
  | flowMapping
  | flowMappingEnd
  | item
  | comma
  | key
  | value
  /-- A number by which others refer to the node that follows. -/
  | anchor (index : Nat)
  /-- The node with a number. -/
  | reference (index : Nat)
  /-- A tag, as the octets of its two parts. -/
  | tag (handle suffix : String)
  | scalar (style : Style) (text : String)
  deriving DecidableEq

/-- A node that turns out to be a key if a colon follows it on its line. -/
structure PossibleKey where
  /-- The place before it among the tokens. -/
  place : Nat
  /-- Whether it cannot be anything but a key. -/
  required : Bool
  cell : Cell

/-- The tokens read so far, and what the next one depends on. -/
structure Lexer where
  tokens : Array Token
  /-- The columns of the open block collections, the innermost first. -/
  indents : List Nat
  /-- Whether a key may start here. -/
  ready : Bool
  /-- The node that may be a key in the innermost flow collection, or outside of all. -/
  possible : Option PossibleKey
  /-- The same for the collections around it. -/
  outer : List (Option PossibleKey)
  /-- The names given to nodes, each with the number of the node it was last given to. -/
  names : List (String × Nat)

namespace Lexer

/-- Before the first token. -/
def start : Lexer := ⟨#[], [], true, none, [], []⟩

/-- Whether a flow collection is open. -/
def inFlow (l : Lexer) : Bool := !l.outer.isEmpty

/-- The column from which on a line belongs to the innermost block collection. -/
def margin (l : Lexer) : Nat :=
  match l.indents with
  | [] => 0
  | n :: _ => n + 1

/-- With one more token. -/
def push (l : Lexer) (t : Token) : Lexer :=
  { l with tokens := l.tokens.push t }

/-- With a name given to the node that follows, whose number is that of the names so
far; a name that is given again counts once. -/
def putAnchor (l : Lexer) (name : String) : Lexer :=
  let index := l.names.length
  { l with
    tokens := l.tokens.push (.anchor index)
    ready := false
    names := (name, index) :: l.names.filter (·.1 != name) }

/-- With one more token, and then ready for a key or not. -/
def put (l : Lexer) (t : Token) (ready : Bool) : Lexer :=
  { l.push t with ready }

/-- With the block collections closed whose column matches. -/
def closeWhere (l : Lexer) (p : Nat → Bool) : Lexer :=
  if l.inFlow then
    l
  else
    { l with
      tokens := l.tokens ++ (l.indents.takeWhile p).map (fun _ => Token.blockEnd)
      indents := l.indents.dropWhile p }

/-- With the block collections closed to which a line at `column` does not belong. -/
def closeTo (l : Lexer) (column : Nat) : Lexer :=
  l.closeWhere (column < ·)

/-- With all block collections closed. -/
def closeAll (l : Lexer) : Lexer :=
  l.closeWhere fun _ => true

/-- With a block collection opened at a column, unless one is open there. -/
def openAt (l : Lexer) (column : Nat) (t : Token) : Lexer :=
  if !l.inFlow && l.margin ≤ column then
    { l.push t with indents := column :: l.indents }
  else
    l

/-- With the possible key given up; nothing if it is required. -/
def giveUp (l : Lexer) : Option Lexer :=
  match l.possible with
  | none => some l
  | some k => if k.required then none else some { l with possible := none }

/-- With the node that starts at a cell as the possible key, if a key may start here. -/
def offer (l : Lexer) (c : Cell) : Option Lexer :=
  if l.ready then do
    let l ← l.giveUp
    let key : PossibleKey :=
      ⟨l.tokens.size, !l.inFlow && l.indents.head? == some c.column, c⟩
    return { (l.push .unused).push .unused with possible := some key }
  else
    some l

/-- How many bytes a colon may stand after the start of its key. -/
def keyReach : Nat := 1024

/-- With the possible key made a key, which opens a mapping unless one is open at its
column. -/
def useKey (l : Lexer) (k : PossibleKey) : Lexer :=
  let l := { l with tokens := l.tokens.setIfInBounds (k.place + 1) .key, possible := none }
  if !l.inFlow && l.margin ≤ k.cell.column then
    { l with
      tokens := l.tokens.setIfInBounds k.place .blockMapping
      indents := k.cell.column :: l.indents }
  else
    l

/-- With the colon at a cell. -/
def putValue (l : Lexer) (c : Cell) : Option Lexer :=
  let without (l : Lexer) : Option Lexer :=
    if l.inFlow then
      some (l.put .value false)
    else if l.ready then
      some ((l.openAt c.column .blockMapping).put .value true)
    else
      none
  match l.possible with
  | none => without l
  | some k =>
    if k.cell.line == c.line && c.offset ≤ k.cell.offset + keyReach then
      some ((l.useKey k).put .value false)
    else do
      let l ← l.giveUp
      without l

/-- With a token that opens a flow collection. -/
def openFlow (l : Lexer) (c : Cell) (t : Token) : Option Lexer := do
  let l ← l.offer c
  return { l.put t true with possible := none, outer := l.possible :: l.outer }

/-- With a token that closes a flow collection. -/
def closeFlow (l : Lexer) (t : Token) : Option Lexer := do
  let l ← l.giveUp
  let l := l.put t false
  match l.outer with
  | [] => return l
  | k :: outer => return { l with possible := k, outer }

/-- With a token for which a possible key is given up, and a block collection opened
unless a flow collection is open; nothing if a line cannot start so here. -/
def putItem (l : Lexer) (c : Cell) (opening t : Token) (ready : Bool) : Option Lexer := do
  if !l.inFlow && !l.ready then none
  let l := l.openAt c.column opening
  let l ← l.giveUp
  return l.put t ready

/-- With a token that stands between documents. -/
def putBoundary (l : Lexer) (t : Token) : Option Lexer := do
  let l ← l.closeAll.giveUp
  return l.put t false

end Lexer

/-! ### Names, tags and directives -/

/-- Whether a character belongs to a name. -/
def isNameChar (c : Char) : Bool :=
  c.isAlphanum || c == '_' || c == '-'

/-- Reads a name that is not empty and ends where one may end. -/
def takeName (s : List Cell) : Option (String × List Cell) :=
  let (name, rest) := takeChars isNameChar s
  if name.isEmpty then none
  else if atEnd rest || startsWith (fun c => "?:,]\x7d%@\x60".toList.contains c) rest then
    some (String.ofList name, rest)
  else none

/-- Whether a character belongs to a tag; `wide` tells whether punctuation of flow
collections does too. -/
def isTagChar (wide : Bool) (c : Char) : Bool :=
  isNameChar c || ";/?:@&=+$.!~*'()%".toList.contains c
    || (wide && (c == ',' || c == '[' || c == ']'))

/-- How many octets follow the first octet of a character. -/
def octetsAfter? (octet : Nat) : Option Nat :=
  if octet < 0x80 then some 0
  else if octet < 0xC0 then none
  else if octet < 0xE0 then some 1
  else if octet < 0xF0 then some 2
  else if octet < 0xF8 then some 3
  else none

/-- The octets of a tag, in which a percent sign and two digits to the base 16 stand for
one.  `due` octets of a character are still to come, and are written so as well. -/
def octets (due : Nat) : List Char → Option (List Char)
  | [] => if due = 0 then some [] else none
  | '%' :: a :: b :: rest => do
    let octet := (← hexDigit? a) * 16 + (← hexDigit? b)
    let due ←
      if due = 0 then octetsAfter? octet
      else if 0x80 ≤ octet && octet < 0xC0 then some (due - 1)
      else none
    return Char.ofNat octet :: (← octets due rest)
  | c :: rest => do
    if c == '%' || due ≠ 0 then none
    return c :: (← octets 0 rest)

/-- Reads the octets of a tag. -/
def takeTagText (wide : Bool) (s : List Cell) : Option (List Char × List Cell) := do
  let (text, rest) := takeChars (isTagChar wide) s
  return (← octets 0 text, rest)

/-- The text of octets, which a zero ends. -/
def textOfOctets (octets : List Char) : String :=
  String.ofList (octets.takeWhile (· != '\x00'))

/-- Reads a handle: a name between exclamation marks, or less than that. -/
def takeHandle (s : List Cell) : Option (List Char × List Cell) :=
  match s with
  | [] => none
  | c :: rest =>
    if c.char != '!' then none else
      let (name, rest) := takeChars isNameChar rest
      match rest with
      | d :: rest' =>
        if d.char == '!' then some ('!' :: name ++ ['!'], rest')
        else some ('!' :: name, rest)
      | [] => some ('!' :: name, [])

/-- Reads a tag, as its handle and the text after it. -/
def takeTag (s : List Cell) : Option (String × String × List Cell) := do
  if startsWith (· == '<') (s.drop 1) then
    let (text, rest) ← takeTagText true (s.drop 2)
    if text.isEmpty || !startsWith (· == '>') rest then none
    return ("", textOfOctets text, rest.drop 1)
  else
    let (handle, rest) ← takeHandle s
    if handle.length > 1 && handle.getLast? == some '!' then
      let (text, rest) ← takeTagText false rest
      if text.isEmpty then none
      return (String.ofList handle, textOfOctets text, rest)
    else
      let (text, rest) ← takeTagText false rest
      let suffix := textOfOctets (handle.drop 1 ++ text)
      if suffix.isEmpty then
        return ("", "!", rest)
      else
        return ("!", suffix, rest)

/-- Reads a number of at most nine digits. -/
def takeNumber (s : List Cell) : Option (Nat × List Cell) :=
  let (digits, rest) := takeChars Char.isDigit s
  if digits.isEmpty || digits.length > 9 then none
  else some (digits.foldl (fun n c => n * 10 + (c.toNat - 48)) 0, rest)

/-- Reads a directive after its percent sign. -/
def takeDirective (s : List Cell) : Option (Token × List Cell) := do
  let (name, s) := takeChars isNameChar s
  if !atEnd s then none
  match String.ofList name with
  | "YAML" =>
    let (major, s) ← takeNumber (dropBlanks s)
    if !startsWith (· == '.') s then none
    let (minor, s) ← takeNumber (s.drop 1)
    let s ← endOfLine s
    return (.version major minor, s.drop 1)
  | "TAG" =>
    let (handle, s) ← takeHandle (dropBlanks s)
    if handle.getLast? != some '!' || !startsWith (fun c => c == ' ' || c == '\t') s then none
    let (start, s) ← takeTagText true (dropBlanks s)
    if start.isEmpty || !atEnd s then none
    let s ← endOfLine s
    return (.tagHandle (String.ofList handle) (textOfOctets start), s.drop 1)
  | _ => none

/-! ### Reading tokens -/

/-- Less the white space and comments at the start, and whether a key may start then:
outside of flow collections one may after a line break.  A byte order mark at the start
of a line is passed over. -/
def dropSpace (inFlow : Bool) (ready comment : Bool) : List Cell → List Cell × Bool
  | [] => ([], ready)
  | c :: rest =>
    if isBreak c.char then dropSpace inFlow (ready || !inFlow) false rest
    else if comment then dropSpace inFlow ready true rest
    else if c.column == 0 && c.char == '\uFEFF' then dropSpace inFlow ready false rest
    else if c.char == ' ' || (c.char == '\t' && (inFlow || !ready)) then
      dropSpace inFlow ready false rest
    else if c.char == '#' then dropSpace inFlow ready true rest
    else (c :: rest, ready)

/-- Whether a plain scalar can start with a character. -/
def startsPlain (inFlow : Bool) (c : Char) (rest : List Cell) : Bool :=
  if c == '-' then !startsWith (fun d => d == ' ' || d == '\t') rest
  else if c == '?' || c == ':' then !inFlow && !atEnd rest
  else !"\t,[]\x7b\x7d#&*!|>'\"%@\x60".toList.contains c

namespace Lexer

/-- With the scalar that starts at a cell. -/
def putScalar (l : Lexer) (c : Cell) (style : Style) (text : List Char) (ready : Bool) :
    Option Lexer := do
  let l ← l.offer c
  return l.put (.scalar style (String.ofList text)) ready

/-- With the block scalar that starts after its mark. -/
def blockScalar (l : Lexer) (folded : Bool) (s : List Cell) : Option (Lexer × List Cell) := do
  let l ← l.giveUp
  let (text, rest) ← blockText folded l.margin s
  return (l.put (.scalar (if folded then .folded else .literal) (String.ofList text)) true, rest)

/-- With the token that starts at a cell, and the cells after it. -/
def token (l : Lexer) (c : Cell) (rest : List Cell) : Option (Lexer × List Cell) :=
  if c.column == 0 && c.char == '%' then do
    let l ← l.closeAll.giveUp
    let (t, rest) ← takeDirective rest
    return (l.put t false, rest)
  else if atMarker '-' (c :: rest) then do
    return (← l.putBoundary .documentStart, rest.drop 2)
  else if atMarker '.' (c :: rest) then do
    return (← l.putBoundary .documentEnd, rest.drop 2)
  else
    match c.char with
    | '[' => do return (← l.openFlow c .flowSequence, rest)
    | '\x7b' => do return (← l.openFlow c .flowMapping, rest)
    | ']' => do return (← l.closeFlow .flowSequenceEnd, rest)
    | '\x7d' => do return (← l.closeFlow .flowMappingEnd, rest)
    | ',' => do return ((← l.giveUp).put .comma true, rest)
    | '&' => do
      let l ← l.offer c
      let (name, rest) ← takeName rest
      return (l.putAnchor name, rest)
    | '*' => do
      let l ← l.offer c
      let (name, rest) ← takeName rest
      let index ← l.names.lookup name
      return (l.put (.reference index) false, rest)
    | '!' => do
      let l ← l.offer c
      let (handle, suffix, rest) ← takeTag (c :: rest)
      if atEnd rest || (l.inFlow && startsWith (· == ',') rest) then
        return (l.put (.tag handle suffix) false, rest)
      else none
    | '\'' => do
      let (text, rest) ← singleQuotedText [] .empty rest
      return (← l.putScalar c .singleQuoted text false, rest)
    | '"' => do
      let (text, rest) ← doubleQuotedText [] .empty 0 0 rest
      return (← l.putScalar c .doubleQuoted text false, rest)
    | char =>
      if char == '-' && atEnd rest then do
        return (← l.putItem c .blockSequence .item true, rest)
      else if char == '?' && (l.inFlow || atEnd rest) then do
        return (← l.putItem c .blockMapping .key (!l.inFlow), rest)
      else if char == ':' && (l.inFlow || atEnd rest) then do
        return (← l.putValue c, rest)
      else if char == '|' && !l.inFlow then l.blockScalar false rest
      else if char == '>' && !l.inFlow then l.blockScalar true rest
      else if startsPlain l.inFlow char rest then do
        let (text, broken, rest) ← plainText l.inFlow l.margin [] .empty (c :: rest)
        return (← l.putScalar c .plain text broken, rest)
      else none

/-- Reads at most `fuel` tokens, to the end of the document. -/
def run (l : Lexer) (s : List Cell) : Nat → Option Lexer
  | 0 => none
  | fuel + 1 =>
    let (s, ready) := dropSpace l.inFlow l.ready false s
    let l := { l with ready }
    match s with
    | [] => l.closeAll.giveUp
    | c :: rest => do
      let (l, rest) ← (l.closeTo c.column).token c rest
      run l rest fuel

end Lexer

/-- The tokens of a text; nothing if it is not well-formed. -/
def tokens (s : String) : Option (List Token) := do
  let cells ← cells s
  let l ← Lexer.start.run cells (cells.length + 1)
  return l.tokens.toList.filter (· != .unused)

end Statechart.Yaml
