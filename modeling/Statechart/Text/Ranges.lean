/-
Sets of characters as ranges of code points.

A property of characters that a standard lists is a table of closed ranges, the
smallest code points first.
-/

namespace Statechart.Text

/-- Whether a code point lies in one of the ranges. -/
def inRanges (ranges : List (Nat × Nat)) (n : Nat) : Bool :=
  ranges.any (fun r => r.1 ≤ n && n ≤ r.2)

/-- A code point lies in the ranges exactly when one of them holds it. -/
theorem inRanges_eq_true_iff {ranges : List (Nat × Nat)} {n : Nat} :
    inRanges ranges n = true ↔ ∃ r ∈ ranges, r.1 ≤ n ∧ n ≤ r.2 := by
  simp [inRanges]

end Statechart.Text
