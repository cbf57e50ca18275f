/-
How many bytes texts take.
-/

namespace Statechart.Text

/-- How many bytes a text takes. -/
def byteSize : List Char → Nat
  | [] => 0
  | c :: rest => c.utf8Size + byteSize rest

@[simp]
theorem byteSize_nil : byteSize [] = 0 := rfl

@[simp]
theorem byteSize_cons {c : Char} {s : List Char} :
    byteSize (c :: s) = c.utf8Size + byteSize s := rfl

@[simp]
theorem byteSize_append {s t : List Char} : byteSize (s ++ t) = byteSize s + byteSize t := by
  induction s with
  | nil => simp
  | cons c s ih => simp [ih, Nat.add_assoc]

@[simp]
theorem byteSize_reverse {s : List Char} : byteSize s.reverse = byteSize s := by
  induction s with
  | nil => rfl
  | cons c s ih => simp [ih, Nat.add_comm]

end Statechart.Text
