/-
The names of delayed events.

The name of a delayed event is put together of a start, the digits of the delay and the id of
the node that waits, with a parenthesis behind the digits.  An id may hold anything, another
parenthesis as well, but digits hold none, so that the first one ends the delay.  Everything
else follows: the delay is read back (`delay?_afterName`), delay and id can be told from the
name (`afterName_inj`), and no name of a completion has such a start.

Reading a number is the other half.  `digits?_eq` says what digits come to in terms of the
standard library, which knows that the digits of a number spell it.
-/
import Statechart.Event
import Statechart.Proofs.Tree.Letters

namespace Statechart

namespace Text

variable {c : Char} {s : List Char} {n : Nat}

/-! ### Numbers that are read back -/

theorem digit?_of_isDigit (h : c.isDigit = true) : digit? c = some (c.toNat - 48) := by
  rw [digit?, if_pos h]

/-- Digits are read as the number that they spell, behind the one that was read before. -/
theorem digits?_eq (h : ∀ c ∈ s, c.isDigit = true) :
    ∀ n, digits? n s = some (Nat.ofDigitChars 10 s n) := by
  induction s with
  | nil => intro n; rfl
  | cons c rest ih =>
      intro n
      simp only [List.mem_cons, forall_eq_or_imp] at h
      rw [digits?, digit?_of_isDigit h.1, Nat.ofDigitChars_cons, Nat.mul_comm 10]
      exact ih h.2 _

/-- The digits of a number are read as the number. -/
theorem digits?_repr (n : Nat) : digits? 0 (Nat.repr n).toList = some n := by
  rw [digits?_eq fun c hc => isDigit_of_mem_repr hc, Nat.toList_repr,
    Nat.ofDigitChars_toDigits (by decide) (by decide)]

/-- **A number of at most 64 bits is read back from its digits.** -/
theorem word?_repr (h : n ≤ wordLimit) : word? (Nat.repr n).toList = some n := by
  have hread := digits?_repr n
  have hne : (Nat.repr n).toList ≠ [] := by
    rw [Nat.toList_repr]
    exact Nat.toDigits_ne_nil
  cases hlist : (Nat.repr n).toList with
  | nil => exact absurd hlist hne
  | cons c rest =>
      have hfirst : c ∈ (Nat.repr n).toList := by simp only [hlist, List.mem_cons, true_or]
      have hdigit : c.isDigit = true := isDigit_of_mem_repr hfirst
      have hplus : c ≠ '+' := fun hc => absurd (hc ▸ hdigit) (by decide)
      rw [hlist] at hread
      simp [word?, hplus, hread, h]

/-- What is read as a number has at most 64 bits. -/
theorem le_of_word? (h : word? s = some n) : n ≤ wordLimit := by
  unfold word? at h
  dsimp only at h
  split at h
  · cases h
  · split at h
    · split at h
      · cases h
        assumption
      · cases h
    · cases h

end Text

namespace Event

variable {delay delay' : Nat} {id id' : String}

/-! ### Names -/

theorem afterName_toList : (afterName delay id).toList =
    afterStart.toList ++ ((Nat.repr delay).toList ++ ')' :: '#' :: id.toList) := by
  simp [afterName]

/-- The digits of a delay hold no parenthesis. -/
theorem parenthesis_repr : ')' ∉ (Nat.repr delay).toList := fun hmem =>
  absurd (isDigit_of_mem_repr hmem) (by decide)

/-- **The delay is read back from the name of the event**, whatever the id holds. -/
theorem delay?_afterName (h : delay ≤ Text.wordLimit) :
    delay? (afterName delay id) = some delay := by
  have hrest : Text.afterStart? afterStart.toList (afterName delay id).toList =
      some ((Nat.repr delay).toList ++ ')' :: '#' :: id.toList) :=
    Text.afterStart?_eq_some_iff.mpr afterName_toList
  have hdigits : ∀ c ∈ (Nat.repr delay).toList, decide (c ≠ ')') = true := by
    intro c hc
    simp only [decide_eq_true_eq]
    exact fun heq => parenthesis_repr (heq ▸ hc)
  simp only [delay?, hrest, Option.bind_eq_bind, Option.bind_some]
  rw [if_pos (by simp), List.takeWhile_append_of_pos hdigits]
  simpa using Text.word?_repr h

/-- **Delay and id can be told from the name of the event.** -/
theorem afterName_inj (h : afterName delay id = afterName delay' id') :
    delay = delay' ∧ id = id' := by
  have hlist := congrArg String.toList h
  rw [afterName_toList, afterName_toList, List.append_cancel_left_eq] at hlist
  obtain ⟨hdelay, hid⟩ := append_sep_inj parenthesis_repr parenthesis_repr hlist
  have hread := congrArg (Text.digits? 0) hdelay
  rw [Text.digits?_repr, Text.digits?_repr] at hread
  exact ⟨Option.some.inj hread, String.toList_inj.mp (List.cons.inj hid).2⟩

/-- The name of a delayed event is not that of a completion event. -/
theorem isDone_afterName : isDone (afterName delay id) = false := by
  simp [isDone, afterName_toList, afterStart, doneStart, Text.afterStart?]

theorem isDone_doneName : isDone (doneName id) = true := by
  have hrest : Text.afterStart? doneStart.toList (doneName id).toList = some id.toList :=
    Text.afterStart?_eq_some_iff.mpr (by simp [doneName])
  rw [isDone, hrest]
  rfl

theorem afterName_ne_doneName : afterName delay id ≠ doneName id' := by
  intro h
  have hdone : isDone (afterName delay id) = false := isDone_afterName
  rw [h, isDone_doneName] at hdone
  cases hdone

end Event

end Statechart
