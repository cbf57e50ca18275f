/-
How far a token reaches in a text.

A scan that has found a word, a text in quotes or a numeral has used the first part of what it
was given, and would have found the same in front of any other text: a word is closed by its
last letter and a text by its quote, and a numeral by whatever it cannot go on with (`goesOn`).
No token begins or ends with white space.
-/
import Statechart.Json.Reader
import Statechart.Proofs.Guard.Written

namespace Statechart.Json

open GuardExpr (Halts halts_cons halts_append halts_dropWhile takeWhile_append_of_halts
  dropWhile_append_of_halts)

variable {s t used front rest : List Char} {c : Char} {raw : Raw}

/-! ### Characters -/

/-- Whether a numeral may go on with a character. -/
def goesOn (c : Char) : Bool :=
  c.isDigit || c = '.' || c = 'e' || c = 'E'

/-- Whether a character marks an exponent. -/
def isMark (c : Char) : Bool :=
  c = 'e' || c = 'E'

theorem isBlank_of_isSpace (h : isSpace c = true) : Text.isBlank c = true := by
  simp only [isSpace, Bool.or_eq_true, decide_eq_true_eq] at h
  rcases h with ((rfl | rfl) | rfl) | rfl <;> decide

theorem isSpace_of_isBlank (h : Text.isBlank c = false) : isSpace c = false :=
  Bool.eq_false_iff.mpr fun hs => by simp [isBlank_of_isSpace hs] at h

theorem not_goesOn_of_isSpace (h : isSpace c = true) : goesOn c = false := by
  simp only [isSpace, Bool.or_eq_true, decide_eq_true_eq] at h
  rcases h with ((rfl | rfl) | rfl) | rfl <;> decide

theorem not_isBlank_of_isDigit (h : c.isDigit = true) : Text.isBlank c = false := by
  rw [Char.isDigit, Bool.and_eq_true, decide_eq_true_eq, decide_eq_true_eq] at h
  have hlow : 48 ≤ c.toNat := UInt32.le_iff_toNat_le.mp h.1
  have hhigh : c.toNat ≤ 57 := UInt32.le_iff_toNat_le.mp h.2
  rw [Text.isBlank, if_pos (by omega)]
  simp
  omega

/-! ### Where a scan stops -/

theorem halts_or_cons (p : Char → Bool) (s : List Char) :
    Halts p s ∨ ∃ c rest, s = c :: rest ∧ p c = true := by
  cases s with
  | nil => exact Or.inl fun c hc => by simp at hc
  | cons c rest =>
      cases hc : p c with
      | false => exact Or.inl (halts_cons.mpr hc)
      | true => exact Or.inr ⟨c, rest, rfl, hc⟩

theorem halts_append_of_halts {p : Char → Bool} {rest' : List Char} (h : Halts p (used ++ rest))
    (hrest : Halts p rest') : Halts p (used ++ rest') := by
  cases used with
  | nil => exact hrest
  | cons c more => exact h

theorem halts_reverse_append {p : Char → Bool} (front : List Char) (hne : used ≠ [])
    (h : Halts p used.reverse) : Halts p (front ++ used).reverse := by
  rw [List.reverse_append]
  exact (halts_append (by simpa using hne)).mpr h

theorem halts_reverse_concat {p : Char → Bool} (front : List Char) (h : p c = false) :
    Halts p (front ++ [c]).reverse := by
  rw [List.reverse_append]
  exact halts_cons.mpr h

/-! ### White space -/

/-- The text from its first token on stands behind white space. -/
theorem exists_spaces (h : afterSpace s = t) :
    ∃ spaces, s = spaces ++ t ∧ ∀ c ∈ spaces, isSpace c = true :=
  ⟨s.takeWhile isSpace, by rw [← h]; exact List.takeWhile_append_dropWhile.symm, fun _ hc =>
    List.mem_takeWhile_imp hc⟩

theorem afterSpace_append (hfront : ∀ c ∈ front, isSpace c = true) :
    afterSpace (front ++ s) = afterSpace s :=
  List.dropWhile_append_of_pos hfront

theorem afterSpace_cons (h : isSpace c = false) : afterSpace (c :: s) = c :: s :=
  List.dropWhile_cons_of_neg (by simp [h])

theorem isSpace_of_afterSpace (h : afterSpace s = c :: t) : isSpace c = false := by
  have hhalts : Halts isSpace (afterSpace s) := halts_dropWhile
  rw [h, halts_cons] at hhalts
  exact hhalts

/-- A numeral does not go on where something else is the next token. -/
theorem halts_of_afterSpace (h : afterSpace s = c :: t) (hc : goesOn c = false) :
    Halts goesOn s := by
  obtain ⟨spaces, rfl, hspaces⟩ := exists_spaces h
  cases spaces with
  | nil => exact halts_cons.mpr hc
  | cons first more =>
      exact halts_cons.mpr (not_goesOn_of_isSpace (hspaces _ (List.mem_cons_self ..)))

/-- A scan that passes over white space before it begins. -/
def SkipsSpace {β : Type} (read : List Char → β) : Prop :=
  ∀ front s, (∀ c ∈ front, isSpace c = true) → read (front ++ s) = read s

/-! ### Words and texts -/

theorem readWord_eq_some {tree : Raw} {naming : Fault} {word : List Char} :
    readWord tree naming word s = (raw, some rest) ↔ s = word ++ rest ∧ raw = tree := by
  induction word generalizing s with
  | nil =>
      rw [readWord, Prod.mk.injEq, Option.some_inj, List.nil_append]
      exact ⟨fun ⟨htree, hrest⟩ => ⟨hrest, htree.symm⟩, fun ⟨hrest, htree⟩ => ⟨htree.symm, hrest⟩⟩
  | cons w word ih =>
      cases s with
      | nil => simp [readWord]
      | cons c s =>
          rw [readWord]
          by_cases hc : w = c
          · rw [if_pos hc, ih, hc, List.cons_append, List.cons_inj_right]
          · simp [hc, Ne.symm hc]

/-- A text in quotes ends with the first quote that is no escape. -/
theorem exists_body {units : List TextUnit} (h : textUnits s = (units, .closed rest)) :
    ∃ body, s = body ++ '"' :: rest ∧
      ∀ rest', textUnits (body ++ '"' :: rest') = (units, .closed rest') := by
  fun_induction textUnits s generalizing units with
  | case2 after =>
      cases h
      exact ⟨[], rfl, fun _ => rfl⟩
  | case4 a b c d after n hn units' ending htail ih =>
      cases h
      obtain ⟨body, rfl, hbody⟩ := ih htail
      exact ⟨'\\' :: 'u' :: a :: b :: c :: d :: body, rfl, fun rest' => by
        simp [textUnits, hn, hbody]⟩
  | case7 e after _ hu c hc units' ending htail ih =>
      cases h
      obtain ⟨body, rfl, hbody⟩ := ih htail
      refine ⟨'\\' :: e :: body, rfl, fun rest' => ?_⟩
      rw [List.cons_append, List.cons_append, textUnits, hc, hbody]
      · exact fun _ _ _ _ _ he _ => hu he
      · exact hu
  | case10 c after hquote _ _ _ hescape hcontrol units' ending htail ih =>
      cases h
      obtain ⟨body, rfl, hbody⟩ := ih htail
      have hbackslash : c ≠ '\\' := fun hc => by
        obtain ⟨e, more, hmore⟩ := List.exists_cons_of_ne_nil (l := body ++ '"' :: rest) (by simp)
        exact hescape e more hc hmore
      exact ⟨c :: body, rfl, fun rest' => by
        simp [textUnits, hbackslash, hcontrol, hbody]⟩
  | _ => cases h

theorem exists_quoted (h : readText s = (raw, some rest)) :
    ∃ body, s = body ++ '"' :: rest ∧
      ∀ rest', readText (body ++ '"' :: rest') = (raw, some rest') := by
  unfold readText at h
  cases hunits : textUnits s with
  | mk units ending =>
      rw [hunits] at h
      cases ending with
      | closed after =>
          obtain ⟨body, hs, hbody⟩ := exists_body hunits
          cases h
          exact ⟨body, hs, fun rest' => by rw [readText, hbody]⟩
      | broken fault =>
          dsimp only at h
          split at h <;> cases h

/-! ### Numerals -/

theorem exists_digits (s : List Char) :
    ∃ digits after, s = digits ++ after ∧ (∀ c ∈ digits, c.isDigit = true) ∧
      Halts Char.isDigit after ∧ takeDigits s = (digits.map digitOf, after) :=
  ⟨s.takeWhile Char.isDigit, s.dropWhile Char.isDigit, List.takeWhile_append_dropWhile.symm,
    fun _ hc => List.mem_takeWhile_imp hc, halts_dropWhile, rfl⟩

theorem takeDigits_append {digits : List Char} (hdigits : ∀ c ∈ digits, c.isDigit = true)
    (h : Halts Char.isDigit rest) : takeDigits (digits ++ rest) = (digits.map digitOf, rest) := by
  rw [takeDigits, takeWhile_append_of_halts hdigits h, dropWhile_append_of_halts hdigits h]

theorem not_isBlank_of_digits {digits : List Char} (hdigits : ∀ c ∈ digits, c.isDigit = true) :
    Halts Text.isBlank digits.reverse := fun _ hc =>
  not_isBlank_of_isDigit (hdigits _ (List.mem_reverse.mp (List.mem_of_mem_head? hc)))

theorem halts_isDigit (h : Halts goesOn rest) : Halts Char.isDigit rest :=
  h.imp fun _ hc => by simp [goesOn, hc]

/-- The sign of an exponent, if it has one, and what follows it. -/
def takeSign : List Char → Bool × List Char
  | '+' :: rest => (false, rest)
  | '-' :: rest => (true, rest)
  | rest => (false, rest)

theorem takeSign_of_isDigit (h : c.isDigit = true) : takeSign (c :: s) = (false, c :: s) := by
  unfold takeSign
  split
  · rename_i heq
    rw [List.cons.injEq] at heq
    exact absurd (heq.1 ▸ h) (by decide)
  · rename_i heq
    rw [List.cons.injEq] at heq
    exact absurd (heq.1 ▸ h) (by decide)
  · rfl

/-- A sign is found again in front of digits. -/
theorem exists_sign (s : List Char) : ∃ sign, s = sign ++ (takeSign s).2 ∧
    ∀ t, (∃ c ∈ t.head?, c.isDigit = true) →
      takeSign (sign ++ t) = ((takeSign s).1, t) := by
  unfold takeSign
  split
  · exact ⟨['+'], rfl, fun _ _ => rfl⟩
  · exact ⟨['-'], rfl, fun _ _ => rfl⟩
  · refine ⟨[], rfl, fun t ⟨c, hc, hdigit⟩ => ?_⟩
    obtain ⟨more, rfl⟩ := List.head?_eq_some_iff.mp hc
    exact takeSign_of_isDigit hdigit

section Exponent

variable {negative : Bool} {whole : List Nat} {fraction : Option (List Nat)}

theorem readExponent_of_halts (h : Halts isMark s) : readExponent negative whole fraction s =
    (.number (Numeral.value ⟨negative, whole, fraction, none⟩), some s) := by
  cases s with
  | nil => rfl
  | cons c rest =>
      have hc := halts_cons.mp h
      unfold isMark at hc
      unfold readExponent
      simp only [hc]
      rfl

theorem readExponent_of_mark (hc : isMark c = true) :
    readExponent negative whole fraction (c :: s) =
      if (takeDigits (takeSign s).2).1.isEmpty then lacksDigits (takeDigits (takeSign s).2).2
      else (.number (Numeral.value ⟨negative, whole, fraction,
        some ((takeSign s).1, (takeDigits (takeSign s).2).1)⟩),
          some (takeDigits (takeSign s).2).2) := by
  unfold isMark at hc
  unfold readExponent
  simp only [hc, if_true]
  rfl

theorem lacksDigits_ne : lacksDigits s ≠ (raw, some rest) := by
  unfold lacksDigits
  split <;> simp

/-- What a numeral ends with is found again in front of any text that it does not go on in. -/
structure EndsNumeral (read : List Char → Reading Raw) (used : List Char) (raw : Raw) : Prop where
  ends : Halts Text.isBlank used.reverse
  finds : ∀ rest, Halts goesOn rest → read (used ++ rest) = (raw, some rest)

theorem EndsNumeral.behind {read : List Char → Reading Raw} {digits : List Char}
    (h : EndsNumeral read used raw) (front : List Char) (hne : digits ≠ [])
    (hdigits : ∀ c ∈ digits, c.isDigit = true) :
    Halts Text.isBlank (front ++ digits ++ used).reverse := by
  cases used with
  | nil =>
      rw [List.append_nil]
      exact halts_reverse_append front hne (not_isBlank_of_digits hdigits)
  | cons c more => exact halts_reverse_append (front ++ digits) (by simp) h.ends

theorem takeDigits_isEmpty {digits : List Char} :
    (digits.map digitOf).isEmpty = false ↔ digits ≠ [] := by
  cases digits <;> simp

theorem head_isDigit {digits : List Char} (hne : digits ≠ [])
    (hdigits : ∀ c ∈ digits, c.isDigit = true) :
    ∃ c ∈ (digits ++ rest).head?, c.isDigit = true := by
  obtain ⟨c, more, rfl⟩ := List.exists_cons_of_ne_nil hne
  exact ⟨c, rfl, hdigits c (List.mem_cons_self ..)⟩

theorem exists_exponent (h : readExponent negative whole fraction s = (raw, some rest)) :
    ∃ used, s = used ++ rest ∧ EndsNumeral (readExponent negative whole fraction) used raw := by
  rcases halts_or_cons isMark s with hplain | ⟨c, after, rfl, hc⟩
  · rw [readExponent_of_halts hplain] at h
    cases h
    refine ⟨[], rfl, ⟨fun _ hc => by simp at hc, fun rest' hrest' => ?_⟩⟩
    exact readExponent_of_halts (hrest'.imp fun c hc => by
      rcases Bool.or_eq_true_iff.mp hc with h | h <;> simp [goesOn, of_decide_eq_true h])
  · obtain ⟨sign, hafter, hsign⟩ := exists_sign after
    obtain ⟨digits, behind, heq, hdigits, -, htake⟩ := exists_digits (takeSign after).2
    rw [readExponent_of_mark hc, htake] at h
    split at h
    · exact absurd h lacksDigits_ne
    · rename_i hlacks
      have hne : digits ≠ [] := takeDigits_isEmpty.mp (by simpa using hlacks)
      cases h
      refine ⟨c :: (sign ++ digits), by rw [List.cons_append, List.append_assoc, ← heq, ← hafter],
        ⟨halts_reverse_append (c :: sign) hne (not_isBlank_of_digits hdigits),
          fun rest' hrest' => ?_⟩⟩
      rw [List.cons_append, readExponent_of_mark hc, List.append_assoc,
        hsign _ (head_isDigit hne hdigits), takeDigits_append hdigits (halts_isDigit hrest'),
        if_neg hlacks]

/-- What follows the whole part of a numeral. -/
def readFraction (negative : Bool) (whole : List Nat) : List Char → Reading Raw
  | '.' :: rest =>
    if (takeDigits rest).1.isEmpty then lacksDigits (takeDigits rest).2
    else readExponent negative whole (some (takeDigits rest).1) (takeDigits rest).2
  | rest => readExponent negative whole none rest

theorem readFraction_of_head (h : s.head? ≠ some '.') :
    readFraction negative whole s = readExponent negative whole none s := by
  unfold readFraction
  split
  · exact absurd rfl h
  · rfl

theorem exists_fraction (h : readFraction negative whole s = (raw, some rest)) :
    ∃ used, s = used ++ rest ∧ EndsNumeral (readFraction negative whole) used raw := by
  by_cases hhead : s.head? = some '.'
  · obtain ⟨after, rfl⟩ := List.head?_eq_some_iff.mp hhead
    obtain ⟨digits, behind, rfl, hdigits, hbehind, htake⟩ := exists_digits after
    rw [readFraction, htake] at h
    split at h
    · exact absurd h lacksDigits_ne
    · rename_i hlacks
      have hne : digits ≠ [] := takeDigits_isEmpty.mp (by simpa using hlacks)
      obtain ⟨used, rfl, hused⟩ := exists_exponent h
      refine ⟨'.' :: digits ++ used, by simp, ⟨hused.behind ['.'] hne hdigits,
        fun rest' hrest' => ?_⟩⟩
      rw [List.cons_append, List.cons_append, List.append_assoc, readFraction,
        takeDigits_append hdigits (halts_append_of_halts hbehind (halts_isDigit hrest')),
        if_neg hlacks, hused.finds _ hrest']
  · rw [readFraction_of_head hhead] at h
    obtain ⟨used, rfl, hused⟩ := exists_exponent h
    refine ⟨used, rfl, ⟨hused.ends, fun rest' hrest' => ?_⟩⟩
    rw [readFraction_of_head, hused.finds _ hrest']
    intro hdot
    have hhalts : Halts (· == '.') (used ++ rest') :=
      halts_append_of_halts (fun c hc => beq_eq_false_iff_ne.mpr fun heq => hhead (heq ▸ hc))
        (hrest'.imp fun c hc => by simp [goesOn, beq_iff_eq.mp hc])
    exact absurd (hhalts '.' hdot) (by decide)

end Exponent

/-- The minus sign of a numeral, if it has one, and what follows it. -/
def takeMinus : List Char → Bool × List Char
  | '-' :: rest => (true, rest)
  | rest => (false, rest)

theorem takeMinus_of_isDigit (h : c.isDigit = true) : takeMinus (c :: s) = (false, c :: s) := by
  unfold takeMinus
  split
  · rename_i heq
    rw [List.cons.injEq] at heq
    exact absurd (heq.1 ▸ h) (by decide)
  · rfl

theorem exists_minus (s : List Char) : ∃ minus, s = minus ++ (takeMinus s).2 ∧
    ∀ t, (∃ c ∈ t.head?, c.isDigit = true) →
      takeMinus (minus ++ t) = ((takeMinus s).1, t) := by
  unfold takeMinus
  split
  · exact ⟨['-'], rfl, fun _ _ => rfl⟩
  · refine ⟨[], rfl, fun t ⟨c, hc, hdigit⟩ => ?_⟩
    obtain ⟨more, rfl⟩ := List.head?_eq_some_iff.mp hc
    exact takeMinus_of_isDigit hdigit

/-- A numeral by its parts. -/
theorem readNumber_eq : readNumber s =
    if (takeDigits (takeMinus s).2).1.isEmpty then lacksDigits (takeDigits (takeMinus s).2).2
    else if (takeDigits (takeMinus s).2).1.head? = some 0 &&
      1 < (takeDigits (takeMinus s).2).1.length then (.malformed, none)
    else readFraction (takeMinus s).1 (takeDigits (takeMinus s).2).1
      (takeDigits (takeMinus s).2).2 := by
  rfl

theorem exists_number (h : readNumber s = (raw, some rest)) :
    ∃ used, s = used ++ rest ∧ used ≠ [] ∧ EndsNumeral readNumber used raw := by
  obtain ⟨minus, hs, hminus⟩ := exists_minus s
  obtain ⟨digits, behind, heq, hdigits, hbehind, htake⟩ := exists_digits (takeMinus s).2
  rw [readNumber_eq, htake] at h
  split at h
  · exact absurd h lacksDigits_ne
  · rename_i hlacks
    have hne : digits ≠ [] := takeDigits_isEmpty.mp (by simpa using hlacks)
    split at h
    · simp at h
    · rename_i hzero
      obtain ⟨used, rfl, hused⟩ := exists_fraction h
      refine ⟨minus ++ digits ++ used, by rw [hs, heq]; simp, by simp [hne],
        ⟨hused.behind minus hne hdigits, fun rest' hrest' => ?_⟩⟩
      rw [readNumber_eq, List.append_assoc, List.append_assoc,
        hminus _ (head_isDigit hne hdigits),
        takeDigits_append hdigits (halts_append_of_halts hbehind (halts_isDigit hrest')),
        if_neg hlacks, if_neg hzero, hused.finds _ hrest']

end Statechart.Json
