/-
Lines as they are typed.

A backspace in a line takes back the cluster before it.  How much that is has been noted
in one byte, so of a cluster of 256 bytes or more only the remainder goes; where that
ends within a character, there is no line.
-/
import Statechart.Text.Bytes
import Statechart.Text.Grapheme

namespace Statechart.CommandLine

/-- A line as far as it is typed. -/
structure TypedLine where
  /-- The text, in reverse. -/
  text : List Char
  /-- The noted sizes of its clusters, the last first. -/
  sizes : List Nat

namespace TypedLine

/-- Nothing typed yet. -/
def empty : TypedLine := ⟨[], []⟩

/-- A reversed text less some bytes at its end; nothing if these are no whole characters. -/
def less (bytes : Nat) : List Char → Option (List Char)
  | [] => some []
  | c :: rest =>
    if bytes = 0 then some (c :: rest)
    else if c.utf8Size ≤ bytes then less (bytes - c.utf8Size) rest
    else none

/-- With one more cluster, or with one taken back. -/
def type (line : TypedLine) (cluster : List Char) : Option TypedLine :=
  if cluster = ['\x08'] then
    match line.sizes with
    | [] => some line
    | size :: sizes => (less size line.text).map fun text => ⟨text, sizes⟩
  else
    some ⟨cluster.reverse ++ line.text, Text.byteSize cluster % 256 :: line.sizes⟩

/-- A line with its backspaces carried out. -/
def ofText? (s : String) : Option String := do
  let line ← (Text.clusters s.toList).foldlM type empty
  return String.ofList line.text.reverse

/-- What was put before a reversed text is as many bytes as it takes. -/
theorem less_byteSize {s rest : List Char} :
    less (Text.byteSize s) (s ++ rest) = some rest := by
  induction s with
  | nil => cases rest <;> simp [less]
  | cons c s ih =>
    have hpos : 0 < c.utf8Size := c.utf8Size_pos
    have hne : ¬ c.utf8Size + Text.byteSize s = 0 := by omega
    have hle : c.utf8Size ≤ c.utf8Size + Text.byteSize s := by omega
    have hsub : c.utf8Size + Text.byteSize s - c.utf8Size = Text.byteSize s := by omega
    simp only [List.cons_append, less, Text.byteSize_cons]
    rw [if_neg hne, if_pos hle, hsub, ih]

/-- A cluster that is not too long is taken back whole. -/
theorem type_type_backspace {line : TypedLine} {cluster : List Char}
    (h : Text.byteSize cluster < 256) (hc : cluster ≠ ['\x08']) :
    (line.type cluster).bind (·.type ['\x08']) = some line := by
  have hback : less (Text.byteSize cluster % 256) (cluster.reverse ++ line.text)
      = some line.text := by
    rw [Nat.mod_eq_of_lt h, ← Text.byteSize_reverse]
    exact less_byteSize
  simp [type, hc, hback]

end TypedLine

end Statechart.CommandLine
