/-
Texts as clusters.

A text is cut into clusters from left to right.  Whether a character begins a cluster of
its own depends on its class and on what stands before it, of which little has to be
kept: the class of the last character, whether a flag lacks its second letter, and
whether a picture or a consonant waits to be joined.
-/
import Statechart.Text.GraphemeClass

namespace Statechart.Text

/-- A picture with its marks at the end of a text. -/
inductive PictureEnd
  /-- There is none. -/
  | absent
  | present
  /-- There is one, with a joiner after it. -/
  | joined
  deriving DecidableEq

/-- A consonant with its marks at the end of a text. -/
inductive ConsonantEnd
  /-- There is none. -/
  | absent
  | present
  /-- There is one, with a linker among its marks. -/
  | linked
  deriving DecidableEq

/-- What matters of a text for whether a character after it begins a cluster. -/
structure GraphemeContext where
  /-- The class of the last character. -/
  last : GraphemeClass
  /-- Whether the number of letters of flags at the end is odd. -/
  halfFlag : Bool
  picture : PictureEnd
  consonant : ConsonantEnd

namespace GraphemeContext

/-- Nothing that the next character could stay with. -/
def start : GraphemeContext := ⟨.control, false, .absent, .absent⟩

/-- The picture at the end, after a character of a class. -/
def pictureAfter (p : PictureEnd) : GraphemeClass → PictureEnd
  | .picture => .present
  | .joiner => if p = .present then .joined else .absent
  | .extend | .linker | .nonJoiner => if p = .present then .present else .absent
  | _ => .absent

/-- The consonant at the end, after a character of a class. -/
def consonantAfter (c : ConsonantEnd) : GraphemeClass → ConsonantEnd
  | .consonant => .present
  | .linker => if c = .absent then .absent else .linked
  | .extend | .joiner => c
  | _ => .absent

/-- The context after a character of a class. -/
def after (g : GraphemeContext) (k : GraphemeClass) : GraphemeContext where
  last := k
  halfFlag := k == .regional && !g.halfFlag
  picture := pictureAfter g.picture k
  consonant := consonantAfter g.consonant k

/-- Whether a class is that of a character that stays alone. -/
def isAlone : GraphemeClass → Bool
  | .carriageReturn | .lineFeed | .control => true
  | _ => false

/-- Whether a class is that of a mark on what stands before. -/
def isMark : GraphemeClass → Bool
  | .extend | .linker | .nonJoiner | .joiner | .spacing => true
  | _ => false

/-- Whether a character of the second class goes on with the syllable that one of the
first class stands in. -/
def continuesSyllable : GraphemeClass → GraphemeClass → Bool
  | .leading, .leading | .leading, .vowel => true
  | .leading, .openSyllable | .leading, .closedSyllable => true
  | .vowel, .vowel | .vowel, .trailing => true
  | .openSyllable, .vowel | .openSyllable, .trailing => true
  | .trailing, .trailing | .closedSyllable, .trailing => true
  | _, _ => false

/-- Whether a character of a class stays in the cluster before it. -/
def joins (g : GraphemeContext) (k : GraphemeClass) : Bool :=
  if isAlone g.last || isAlone k then g.last == .carriageReturn && k == .lineFeed
  else if isMark k || g.last == .prepend then true
  else
    match k with
    | .regional => g.halfFlag
    | .picture => g.picture == .joined
    | .consonant => g.consonant == .linked
    | k => continuesSyllable g.last k

end GraphemeContext

/-- The clusters of a text in a context, the first of which has begun with some
characters in reverse. -/
def clustersAfter (g : GraphemeContext) (begun : List Char) : List Char → List (List Char)
  | [] => [begun.reverse]
  | c :: rest =>
    let k := GraphemeClass.ofChar c
    if g.joins k then clustersAfter (g.after k) (c :: begun) rest
    else begun.reverse :: clustersAfter (g.after k) [c] rest

/-- The clusters of a text. -/
def clusters : List Char → List (List Char)
  | [] => []
  | c :: rest => clustersAfter (GraphemeContext.start.after (GraphemeClass.ofChar c)) [c] rest

theorem flatten_clustersAfter {g : GraphemeContext} {begun s : List Char} :
    (clustersAfter g begun s).flatten = begun.reverse ++ s := by
  induction s generalizing g begun with
  | nil => simp [clustersAfter]
  | cons c rest ih =>
    simp only [clustersAfter]
    split <;> simp [ih]

/-- The clusters of a text make it up. -/
theorem flatten_clusters {s : List Char} : (clusters s).flatten = s := by
  cases s with
  | nil => rfl
  | cons c rest => simp [clusters, flatten_clustersAfter]

end Statechart.Text
