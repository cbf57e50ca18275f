/-
Texts wrapped to a width.

A line that grows too long goes on in a new line at a word.  Only blanks end a word; the
blanks before the break are dropped.  A line that begins with blanks goes on with the
same blanks.  Parts of a text that a terminal does not show take no room and are kept.
-/
import Statechart.Text.Blank
import Statechart.Text.Bytes
import Statechart.Text.Terminal

namespace Statechart.Text

/-- The words of a line, each with the blanks after it; blanks at the start are a word. -/
def words : List Char → List (List Char)
  | [] => []
  | c :: rest =>
    match words rest with
    | [] => [[c]]
    | [] :: others => [c] :: others
    | (d :: word) :: others =>
      if c == ' ' && d != ' ' then [c] :: (d :: word) :: others
      else (c :: d :: word) :: others

/-- The lines of a text, each with the break at its end. -/
def brokenLines : List Char → List (List Char)
  | [] => []
  | c :: rest =>
    if c == '\n' then [c] :: brokenLines rest
    else
      match brokenLines rest with
      | [] => [[c]]
      | line :: others => (c :: line) :: others

/-- Less the white space at the end. -/
def trimEnd (s : List Char) : List Char :=
  (s.reverse.dropWhile isBlank).reverse

/-- The room that a word takes: a place for each character, but none from a control
character up to the letter m, which ends the commands for colours. -/
def room (control : Bool) : List Char → Nat
  | [] => 0
  | c :: rest =>
    if c.toNat < 32 || c.toNat == 127 then room true rest
    else if control then room (c != 'm') rest
    else room false rest + 1

/-- A line that is being filled. -/
structure Filling where
  /-- How much of it is taken. -/
  used : Nat
  /-- What a line that goes on begins with; it shows with the first word. -/
  margin : Option (List Char)

namespace Filling

/-- An empty line. -/
def fresh : Filling := ⟨0, none⟩

/-- The words of a line within a width, in reverse after the words `done`.  The first
word that shows stands where it is if `first` holds. -/
def place (limit : Nat) (margin : List Char) (first : Bool) (used : Nat)
    (done : List (List Char)) : List (List Char) → List (List Char) × Nat
  | [] => (done, used)
  | word :: rest =>
    let core := trimEnd word
    let width := room false core
    let size := width + (byteSize word - byteSize core)
    if !(first && 0 < width) && limit < used + width then
      let done := match done with
        | [] => []
        | last :: before => trimEnd last :: before
      place limit margin first (byteSize margin + size) (word :: margin :: ['\n'] :: done) rest
    else
      place limit margin (first && width == 0) (used + size) (word :: done) rest

/-- A line within a width. -/
def wrapLine (limit : Nat) (f : Filling) (line : List Char) : List Char × Filling :=
  let margin := match f.margin with
    | some margin => margin
    | none =>
      match words line with
      | [] => []
      | word :: _ => if word.all isBlank then word else []
  let (done, used) := place limit margin f.margin.isNone f.used [] (words line)
  (done.reverse.flatten, ⟨used, some margin⟩)

/-- Some lines within a width, each after a break. -/
def wrapLines (limit : Nat) (f : Filling) : List (List Char) → List Char × Filling
  | [] => ([], f)
  | line :: rest =>
    let (text, f) := f.wrapLine limit line
    match rest with
    | [] => (text, f)
    | rest =>
      let (more, f) := wrapLines limit fresh rest
      (text ++ more, f)

/-- The parts of a text within a width, of which only those that show take room. -/
def wrapParts (limit : Nat) (f : Filling) : List (List Char × Bool) → List Char
  | [] => []
  | (part, shows) :: rest =>
    if shows then
      let (text, f) := f.wrapLines limit (brokenLines part)
      text ++ wrapParts limit f rest
    else
      part ++ wrapParts limit f rest

end Filling

/-- A text within a width. -/
def wrap (limit : Nat) (s : List Char) : List Char :=
  Filling.fresh.wrapParts limit (shownParts s)

/-- A text whose lines after the first are indented. -/
def hang (indent : Nat) (s : List Char) : List Char :=
  s.flatMap fun c => if c == '\n' then c :: List.replicate indent ' ' else [c]

theorem flatten_words {s : List Char} : (words s).flatten = s := by
  induction s with
  | nil => rfl
  | cons c rest ih =>
    unfold words
    split
    · next h => rw [h] at ih; simpa using ih
    · next others h => rw [h] at ih; simpa using ih
    · next d word others h =>
      rw [h] at ih
      split <;> simpa using ih

theorem flatten_brokenLines {s : List Char} : (brokenLines s).flatten = s := by
  induction s with
  | nil => rfl
  | cons c rest ih =>
    unfold brokenLines
    split
    · simp [ih]
    · split
      · next h => rw [h] at ih; simpa using ih
      · next h => rw [h] at ih; simpa using ih

end Statechart.Text
