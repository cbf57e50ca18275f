/-
White space, and texts without it at their ends.

White space is the set of characters with the Unicode property of that name,
which has no members beyond the ones listed here.
-/

namespace Statechart.Text

/-- White space outside ASCII, as closed ranges of code points. -/
def wideBlanks : List (Nat × Nat) := [
  (0x85, 0x85), (0xA0, 0xA0), (0x1680, 0x1680), (0x2000, 0x200A), (0x2028, 0x2029),
  (0x202F, 0x202F), (0x205F, 0x205F), (0x3000, 0x3000)]

/-- Whether a character is white space. -/
def isBlank (c : Char) : Bool :=
  if c.toNat < 128 then
    c.toNat == 32 || (9 ≤ c.toNat && c.toNat ≤ 13)
  else
    wideBlanks.any (fun r => r.1 ≤ c.toNat && c.toNat ≤ r.2)

/-- A text less the characters at both ends for which `drop` holds. -/
def trimBoth (drop : Char → Bool) (s : List Char) : List Char :=
  ((s.dropWhile drop).reverse.dropWhile drop).reverse

/-- A text less the white space at both ends. -/
def trim (s : String) : String :=
  String.ofList (trimBoth isBlank s.toList)

/-- White space in ASCII is white space here. -/
theorem isBlank_of_isWhitespace {c : Char} (h : c.isWhitespace = true) : isBlank c = true := by
  simp only [Char.isWhitespace, Bool.or_eq_true, decide_eq_true_eq] at h
  rcases h with ((rfl | rfl) | rfl) | rfl <;> decide

end Statechart.Text
