/-
Guard expressions read back.

Each reader undoes what a part of an expression is written as: a token on its own, then what
follows a field, then operands, and what joins them.  A reader of operands joined by `&&` or
`||` reads the first and goes on in its tail, so what a joined expression says is not that the
reader ends behind it, but that the tail is reached with the expression on the left
(`ReadsConjunction`, `ReadsDisjunction`).  That is what a further operand is joined to.

The fuel falls by one with each operand that is joined and with each step down to an operand.
A token pays for four such steps.
-/
import Statechart.Proofs.Guard.Written

namespace Statechart

open GuardExpr GuardToken

variable {gap : Nat → Gap} {rest : List Char}

/-! ### What follows an operand -/

/-- Whether the first token of a text begins with one of some characters, if there is one. -/
def Before (marks : List Char) (s : List Char) : Prop :=
  ∀ c ∈ (skipBlanks s).head?, c ∈ marks

/-- What may follow an operand. -/
def operandEnds : List Char := ['&', '|', ')']

theorem Before.halts {marks : List Char} (h : Before marks rest)
    (hmarks : marks.any isPathChar = false) : Halts isPathChar rest := by
  intro c hc
  cases hblank : Text.isBlank c with
  | true => exact not_isPathChar_of_isBlank hblank
  | false =>
      obtain ⟨s, rfl⟩ : ∃ s, rest = c :: s := List.head?_eq_some_iff.mp hc
      have hc : c ∈ marks := h c (by rw [skipBlanks_of_halts (halts_cons.mpr hblank)]; rfl)
      simpa using List.any_eq_false.mp hmarks c hc

theorem before_spaced {marks tail : List Char} {t : GuardToken} {ts : List GuardToken} {c : Char}
    (ht : t.chars = c :: tail) (hc : c ∈ marks) :
    Before marks (spaced gap (t :: ts) ++ rest) := by
  intro d hd
  rw [skipBlanks_spaced, ht, List.cons_append, List.head?_cons, Option.mem_some_iff] at hd
  exact hd ▸ hc

/-! ### Fields -/

theorem afterStart?_append {start : List Char} :
    Text.afterStart? start (start ++ rest) = some rest :=
  Text.afterStart?_eq_some_iff.mpr rfl

theorem afterStart?_cons_of_ne {c d : Char} {start s : List Char} (h : d ≠ c) :
    Text.afterStart? (c :: start) (d :: s) = none :=
  if_neg fun heq => h heq.symm

/-- A path is read as far as its characters go. -/
theorem readPath_eq_ok_iff {source : FieldSource} {s : List Char} {f : Field} :
    readPath source s = .ok (f, rest) ↔
      f.source = source ∧ f.Spelled ∧ s = f.path.toList ++ rest ∧ Halts isPathChar rest := by
  constructor
  · intro h
    simp only [readPath] at h
    split at h
    · cases h
    rename_i hends
    cases h
    simp only [Bool.or_eq_true, not_or, List.isEmpty_iff, beq_iff_eq] at hends
    obtain ⟨⟨hne, hfirst⟩, hlast⟩ := hends
    refine ⟨rfl, ⟨?_, ?_, ?_, ?_⟩, ?_, halts_dropWhile⟩ <;> rw [String.toList_ofList]
    · exact hne
    · exact fun c hc => List.mem_takeWhile_imp hc
    · exact hfirst
    · exact hlast
    · exact List.takeWhile_append_dropWhile.symm
  · rintro ⟨rfl, hf, rfl, hrest⟩
    have htake := takeWhile_append_of_halts hf.chars hrest
    have hdrop := dropWhile_append_of_halts hf.chars hrest
    simp [readPath, htake, hdrop, hf.nonempty, hf.first, hf.last]

theorem readField_of_start {source : FieldSource} {s path : List Char}
    (h : skipBlanks s = source.start ++ path) : readField s = readPath source path := by
  unfold readField
  rw [h]
  cases source <;> rfl

/-- A field is read from what is shown for it, and from nothing else. -/
theorem readField_eq_ok_iff {s : List Char} {f : Field} : readField s = .ok (f, rest) ↔
    f.Spelled ∧ skipBlanks s = f.display.toList ++ rest ∧ Halts isPathChar rest := by
  constructor
  · intro h
    obtain ⟨source, path, hstart⟩ : ∃ source path,
        skipBlanks s = FieldSource.start source ++ path := by
      simp only [readField] at h
      split at h
      · rename_i path hpath
        exact ⟨.context, path, Text.afterStart?_eq_some_iff.mp hpath⟩
      split at h
      · rename_i path hpath
        exact ⟨.event, path, Text.afterStart?_eq_some_iff.mp hpath⟩
      · cases h
    rw [readField_of_start hstart, readPath_eq_ok_iff] at h
    obtain ⟨rfl, hf, rfl, hrest⟩ := h
    exact ⟨hf, by rw [hstart, Field.toList_display, List.append_assoc], hrest⟩
  · rintro ⟨hf, hstart, hrest⟩
    rw [Field.toList_display, List.append_assoc] at hstart
    exact (readField_of_start hstart).trans (readPath_eq_ok_iff.mpr ⟨rfl, hf, rfl, hrest⟩)

theorem readField_token (f : WrittenField) (h : Halts isPathChar rest) :
    readField (f.token.chars ++ rest) = .ok (f.field, rest) := by
  rw [readField_eq_ok_iff, ← f.token_chars]
  exact ⟨f.spelled, skipBlanks_of_halts ((halts_append f.token.nonempty).mpr f.token.starts), h⟩

/-! ### Numerals and literals -/

/-- A numeral behind its sign. -/
def takeUnsigned (negative : Bool) (s : List Char) : Numeral × List Char :=
  match s.dropWhile Char.isDigit with
  | '.' :: rest =>
    (⟨negative, s.takeWhile Char.isDigit, some (rest.takeWhile Char.isDigit)⟩,
      rest.dropWhile Char.isDigit)
  | rest => (⟨negative, s.takeWhile Char.isDigit, none⟩, rest)

theorem takeNumeral_of_head?_ne {s : List Char} (h : s.head? ≠ some '-') :
    takeNumeral s = takeUnsigned false s := by
  unfold takeNumeral
  split
  rename_i negative body heq
  split at heq
  · simp at h
  · cases heq
    rfl

theorem takeUnsigned_text (negative : Bool) {whole : List Char} {fraction : Option (List Char)}
    (hwhole : ∀ c ∈ whole, c.isDigit = true)
    (hfraction : ∀ c ∈ fraction.getD [], c.isDigit = true) (h : Halts isPathChar rest) :
    takeUnsigned negative (Numeral.text ⟨false, whole, fraction⟩ ++ rest)
      = (⟨negative, whole, fraction⟩, rest) := by
  have hrest : Halts Char.isDigit rest := h.imp fun _ => isPathChar_of_isDigit
  unfold takeUnsigned
  cases fraction with
  | none =>
      have htext : Numeral.text ⟨false, whole, none⟩ ++ rest = whole ++ rest := by
        simp [Numeral.text]
      rw [htext, takeWhile_append_of_halts hwhole hrest, dropWhile_append_of_halts hwhole hrest]
      -- what follows begins with no point
      split
      · exact absurd (halts_cons.mp h) (by decide)
      · rfl
  | some digits =>
      have htext : Numeral.text ⟨false, whole, some digits⟩ ++ rest
          = whole ++ ('.' :: (digits ++ rest)) := by
        simp [Numeral.text]
      have hpoint : Halts Char.isDigit ('.' :: (digits ++ rest)) := by
        rw [halts_cons]
        decide
      rw [htext, takeWhile_append_of_halts hwhole hpoint,
        dropWhile_append_of_halts hwhole hpoint]
      have hdigits : ∀ c ∈ digits, c.isDigit = true := hfraction
      simp only [takeWhile_append_of_halts hdigits hrest, dropWhile_append_of_halts hdigits hrest]

theorem takeNumeral_text (n : WrittenNumber) (h : Halts isPathChar rest) :
    takeNumeral (n.numeral.text ++ rest) = (n.numeral, rest) := by
  -- neither a digit nor a point is a sign
  have hhead : n.numeral.negative = false → (n.numeral.text ++ rest).head? ≠ some '-' := by
    intro hsign hminus
    rw [List.head?_append_of_ne_nil _ n.text_ne_nil] at hminus
    rcases n.mem_text (List.mem_of_mem_head? hminus) with ⟨hneg, -⟩ | hdot | hdigit
    · rw [hsign] at hneg
      exact Bool.false_ne_true hneg
    · exact absurd hdot (by decide)
    · exact absurd hdigit (by decide)
  obtain ⟨⟨negative, whole, fraction⟩, hne, hdigits⟩ := n
  have hunsigned := takeUnsigned_text negative
    (fun c hc => hdigits c (List.mem_append_left _ hc))
    (fun c hc => hdigits c (List.mem_append_right _ hc)) h
  cases negative with
  | true => exact hunsigned
  | false => exact (takeNumeral_of_head?_ne (hhead rfl)).trans hunsigned

/-- A number is what stands behind white space. -/
theorem readNumber_token {s : List Char} (n : WrittenNumber) (h : Halts isPathChar rest)
    (hs : skipBlanks s = n.token.chars ++ rest) : readNumber s = .ok (n.value, rest) := by
  have htext : n.token.chars = n.numeral.text := rfl
  simp only [readNumber, hs, htext, takeNumeral_text n h, n.value?_eq]

theorem readText_escaped {s : List Char} :
    readText (escaped s ++ '"' :: rest) = .ok (s, rest) := by
  induction s with
  | nil => rfl
  | cons c s ih =>
      unfold escaped at ih ⊢
      rw [List.flatMap_cons, List.append_assoc]
      by_cases hquote : c = '"'
      · subst hquote
        simp [readText, ih]
      by_cases hslash : c = '\\'
      · subst hslash
        simp [readText, ih]
      simp [readText, hquote, hslash, ih]

theorem readLiteral_quote {s : List Char} (hs : skipBlanks s = '"' :: rest) :
    readLiteral s =
      (do
        let (text, rest) ← readText rest
        return (.string (String.ofList text), rest)) := by
  have htrue : Text.afterStart? "true".toList ('"' :: rest) = none := rfl
  have hfalse : Text.afterStart? "false".toList ('"' :: rest) = none := rfl
  have hnull : Text.afterStart? "null".toList ('"' :: rest) = none := rfl
  simp only [readLiteral, hs, htrue, hfalse, hnull]

/-- What begins neither as a word nor as a text is read as a number. -/
theorem readLiteral_number {s : List Char} {c : Char} (hs : skipBlanks s = c :: rest)
    (hc : ∀ d ∈ ['t', 'f', 'n', '"'], c ≠ d) :
    readLiteral s =
      (do
        let (x, rest) ← readNumber (c :: rest)
        finiteLiteral x rest) := by
  have htrue : Text.afterStart? "true".toList (c :: rest) = none :=
    afterStart?_cons_of_ne (hc 't' (by decide))
  have hfalse : Text.afterStart? "false".toList (c :: rest) = none :=
    afterStart?_cons_of_ne (hc 'f' (by decide))
  have hnull : Text.afterStart? "null".toList (c :: rest) = none :=
    afterStart?_cons_of_ne (hc 'n' (by decide))
  simp only [readLiteral, hs, htrue, hfalse, hnull]
  split
  · rename_i heq
    exact absurd (List.cons.inj heq).1 (hc '"' (by decide))
  · rfl

theorem readLiteral_token {s : List Char} (v : WrittenLiteral) (h : Halts isPathChar rest)
    (hs : skipBlanks s = v.token.chars ++ rest) : readLiteral s = .ok (v.literal, rest) := by
  cases v with
  | bool value =>
      cases value with
      | true =>
          simp only [readLiteral, hs, WrittenLiteral.token, mark_chars, afterStart?_append]
          rfl
      | false =>
          have htrue : Text.afterStart? "true".toList ("false".toList ++ rest) = none := rfl
          simp only [readLiteral, hs, WrittenLiteral.token, mark_chars, htrue,
            afterStart?_append]
          rfl
  | null =>
      have htrue : Text.afterStart? "true".toList ("null".toList ++ rest) = none := rfl
      have hfalse : Text.afterStart? "false".toList ("null".toList ++ rest) = none := rfl
      simp only [readLiteral, hs, WrittenLiteral.token, mark_chars, htrue, hfalse,
        afterStart?_append]
      rfl
  | string value =>
      have hchars : (WrittenLiteral.string value).token.chars ++ rest
          = '"' :: (escaped value.toList ++ '"' :: rest) := by
        simp [WrittenLiteral.token]
      rw [readLiteral_quote (hs.trans hchars), readText_escaped]
      simp [WrittenLiteral.literal]
  | number n finite =>
      obtain ⟨c, tail, htext⟩ := List.exists_cons_of_ne_nil n.text_ne_nil
      have hs' : skipBlanks s = c :: (tail ++ rest) := by
        rw [hs, ← List.cons_append, ← htext]
        rfl
      have hmem : c ∈ n.numeral.text := by
        rw [htext]
        exact List.mem_cons_self ..
      have hc : ∀ d ∈ ['t', 'f', 'n', '"'], c ≠ d := by
        rintro d hd rfl
        simp only [List.mem_cons, List.not_mem_nil, or_false] at hd
        rcases hd with rfl | rfl | rfl | rfl <;> exact n.not_mem_text (by decide) hmem
      have hnumber : readNumber (c :: (tail ++ rest)) = .ok (n.value, rest) :=
        readNumber_token n h (by rw [← hs', skipBlanks_skipBlanks, hs]; rfl)
      rw [readLiteral_number hs' hc, hnumber]
      exact if_pos finite

/-! ### What follows a field -/

section Comparison

variable {f : Field}

theorem readComparison_truthy {s : List Char} (h : ∀ c ∈ s.head?, c ∈ operandEnds) :
    readComparison f s = .ok (.truthy f, s) := by
  cases s with
  | nil => rfl
  | cons c s =>
      have hc := h c rfl
      simp only [operandEnds, List.mem_cons, List.not_mem_nil, or_false] at hc
      rcases hc with rfl | rfl | rfl <;> rfl

theorem readComparison_equal (v : WrittenLiteral) (h : Halts isPathChar rest) :
    readComparison f ("==".toList ++ (spaced gap [v.token] ++ rest)) =
      .ok (.equal f v.literal, rest) := by
  have hliteral := readLiteral_token v h (skipBlanks_singleton gap)
  show readComparison f ('=' :: '=' :: (spaced gap [v.token] ++ rest)) = _
  rw [readComparison, hliteral]
  rfl

theorem readComparison_notEqual (v : WrittenLiteral) (h : Halts isPathChar rest) :
    readComparison f ("!=".toList ++ (spaced gap [v.token] ++ rest)) =
      .ok (.notEqual f v.literal, rest) := by
  have hliteral := readLiteral_token v h (skipBlanks_singleton gap)
  show readComparison f ('!' :: '=' :: (spaced gap [v.token] ++ rest)) = _
  rw [readComparison, hliteral]
  rfl

theorem readComparison_compare (c : Comparison) (n : WrittenNumber) (h : Halts isPathChar rest) :
    readComparison f (c.token.chars ++ (spaced gap [n.token] ++ rest)) =
      .ok (.compare f c n.value, rest) := by
  have hnumber := readNumber_token n h (skipBlanks_singleton gap)
  -- a sign of one character is not followed by the second one of another sign
  have hequals : Halts (fun c => c == '=') (spaced gap [n.token] ++ rest) := by
    refine halts_spaced (fun c hc => ?_) (fun c hc => ?_)
    · rw [beq_eq_false_iff_ne]
      rintro rfl
      exact absurd hc (by decide)
    · rw [beq_eq_false_iff_ne]
      rintro rfl
      exact n.not_mem_text (by decide) (List.mem_of_mem_head? hc)
  have hread : readComparison f (c.token.chars ++ (spaced gap [n.token] ++ rest)) =
      (do
        let (bound, rest) ← readNumber (spaced gap [n.token] ++ rest)
        return (.compare f c bound, rest)) := by
    generalize spaced gap [n.token] ++ rest = s at hequals
    cases c with
    | greaterOrEqual => rfl
    | lessOrEqual => rfl
    | greater =>
        obtain _ | ⟨c, s⟩ := s
        · rfl
        · have hc : c ≠ '=' := by simpa using hequals
          simp [Comparison.token, readComparison, hc]
    | less =>
        obtain _ | ⟨c, s⟩ := s
        · rfl
        · have hc : c ≠ '=' := by simpa using hequals
          simp [Comparison.token, readComparison, hc]
  rw [hread, hnumber]
  rfl

end Comparison

/-! ### Operands -/

/-- Tokens that are read as an operand, whatever white space stands between them. -/
def ReadsOperand (ts : List GuardToken) (e : GuardExpr) : Prop :=
  ∀ (gap : Nat → Gap) (rest : List Char) (fuel : Nat), Before operandEnds rest →
    4 * ts.length ≤ fuel + 3 →
      ∃ left, skipBlanks left = skipBlanks rest ∧
        readOperand fuel (spaced gap ts ++ rest) = .ok (e, left)

/-- Tokens behind which the reader of operands of `&&` goes on with what they say. -/
def ReadsConjunction (ts : List GuardToken) (e : GuardExpr) : Prop :=
  ∀ (gap : Nat → Gap) (rest : List Char) (fuel : Nat), Before operandEnds rest →
    4 * ts.length ≤ fuel + 2 →
      ∃ fuel', fuel ≤ fuel' + ts.length ∧
        readAnd fuel (spaced gap ts ++ rest) = readAndTail fuel' e (skipBlanks rest)

/-- Tokens behind which the reader of operands of `||` goes on with what they say. -/
def ReadsDisjunction (ts : List GuardToken) (e : GuardExpr) : Prop :=
  ∀ (gap : Nat → Gap) (rest : List Char) (fuel : Nat), Before ['|', ')'] rest →
    4 * ts.length ≤ fuel + 1 →
      ∃ fuel', fuel ≤ fuel' + ts.length ∧
        readOr fuel (spaced gap ts ++ rest) = readOrTail fuel' e (skipBlanks rest)

section Rules

variable {ts us : List GuardToken} {e l r : GuardExpr}

/-- What begins as a field does is read as a field and what follows it. -/
theorem readOperand_of_start {source : FieldSource} {s path : List Char} {fuel : Nat}
    (h : skipBlanks s = source.start ++ path) : readOperand (fuel + 1) s =
      readField (skipBlanks s) >>= fun read => readComparison read.1 (skipBlanks read.2) := by
  rw [readOperand, h]
  -- the name of a source begins with neither `!` nor a parenthesis
  cases source <;> rfl

/-- A field and what follows it. -/
theorem readsOperand_of_comparison {f : WrittenField}
    (hhalts : ∀ gap rest, Before operandEnds rest → Halts isPathChar (spaced gap ts ++ rest))
    (hread : ∀ gap rest, Before operandEnds rest →
      ∃ left, skipBlanks left = skipBlanks rest ∧
        readComparison f.field (skipBlanks (spaced gap ts ++ rest)) = .ok (e, left)) :
    ReadsOperand (f.token :: ts) e := by
  intro gap rest fuel hrest hfuel
  rw [List.length_cons] at hfuel
  obtain _ | fuel := fuel
  · omega
  have hfield := readField_token f (hhalts gap rest hrest)
  obtain ⟨left, hleft, hcomparison⟩ := hread gap rest hrest
  refine ⟨left, hleft, ?_⟩
  have hstart : skipBlanks (spaced gap (f.token :: ts) ++ rest) =
      f.source.start ++ (f.path ++ (spaced gap ts ++ rest)) :=
    skipBlanks_spaced.trans (List.append_assoc ..)
  rw [readOperand_of_start hstart, skipBlanks_spaced, hfield]
  exact hcomparison

/-- A field alone. -/
theorem readsOperand_truthy (f : WrittenField) : ReadsOperand [f.token] (.truthy f.field) :=
  readsOperand_of_comparison (fun _ _ hrest => hrest.halts (by decide)) fun _ _ hrest =>
    ⟨_, skipBlanks_skipBlanks, readComparison_truthy hrest⟩

/-- A field and what it is compared with. -/
theorem readsOperand_test {f : WrittenField} {sign value : GuardToken}
    (hsign : Halts isPathChar sign.chars)
    (hread : ∀ gap rest, Halts isPathChar rest →
      readComparison f.field (sign.chars ++ (spaced gap [value] ++ rest)) = .ok (e, rest)) :
    ReadsOperand [f.token, sign, value] e := by
  refine readsOperand_of_comparison (fun gap rest _ => ?_) (fun gap rest hrest => ?_)
  · exact halts_spaced (fun _ => not_isPathChar_of_isBlank) hsign
  · refine ⟨rest, rfl, ?_⟩
    rw [skipBlanks_spaced]
    exact hread gap rest (hrest.halts (by decide))

theorem ReadsOperand.not (h : ReadsOperand ts e) :
    ReadsOperand (mark "!" (by decide) :: ts) (.not e) := by
  intro gap rest fuel hrest hfuel
  rw [List.length_cons] at hfuel
  obtain _ | fuel := fuel
  · omega
  have hskip : skipBlanks (spaced gap (mark "!" (by decide) :: ts) ++ rest)
      = '!' :: (spaced gap ts ++ rest) := skipBlanks_spaced
  obtain ⟨left, hleft, hread⟩ := h gap rest fuel hrest (by omega)
  refine ⟨left, hleft, ?_⟩
  simp only [readOperand, hskip, hread]
  rfl

/-- Behind an opening parenthesis everything is expected that an expression may be. -/
theorem ReadsDisjunction.parenthesized (h : ReadsDisjunction ts e) :
    ReadsOperand (WrittenGuard.parenthesized ts) e := by
  intro gap rest fuel hrest hfuel
  rw [WrittenGuard.parenthesized, List.length_cons, List.length_append,
    List.length_singleton] at hfuel
  obtain _ | fuel := fuel
  · omega
  have hopen : skipBlanks (spaced gap (WrittenGuard.parenthesized ts) ++ rest) =
      '(' :: (spaced (fun i => gap (i + 1)) ts ++ (spaced gap [mark ")" (by decide)] ++ rest)) := by
    rw [WrittenGuard.parenthesized, skipBlanks_spaced, spaced_append, List.append_assoc]
    rfl
  have hclose : skipBlanks (spaced gap [mark ")" (by decide)] ++ rest) = ')' :: rest :=
    skipBlanks_spaced
  obtain ⟨fuel', hfuel', hread⟩ := h (fun i => gap (i + 1))
    (spaced gap [mark ")" (by decide)] ++ rest) fuel (before_spaced rfl (by decide)) (by omega)
  refine ⟨rest, rfl, ?_⟩
  obtain _ | fuel' := fuel'
  · omega
  simp only [readOperand, hopen, hread, hclose]
  rfl

theorem ReadsOperand.conjunction (hpos : 0 < ts.length) (h : ReadsOperand ts e) :
    ReadsConjunction ts e := by
  intro gap rest fuel hrest hfuel
  obtain _ | fuel := fuel
  · omega
  obtain ⟨left, hleft, hread⟩ := h gap rest fuel hrest (by omega)
  refine ⟨fuel, by omega, ?_⟩
  rw [readAnd, hread, ← hleft]
  rfl

theorem ReadsConjunction.and (hl : ReadsConjunction ts l) (hr : ReadsOperand us r) :
    ReadsConjunction (ts ++ mark "&&" (by decide) :: us) (.and l r) := by
  intro gap rest fuel hrest hfuel
  rw [List.length_append, List.length_cons] at hfuel ⊢
  obtain ⟨fuel', hfuel', hread⟩ := hl (fun i => gap (i + (us.length + 1)))
    (spaced gap (mark "&&" (by decide) :: us) ++ rest) fuel (before_spaced rfl (by decide)) (by omega)
  obtain _ | fuel' := fuel'
  · omega
  obtain ⟨left, hleft, hright⟩ := hr gap rest fuel' hrest (by omega)
  have hskip : skipBlanks (spaced gap (mark "&&" (by decide) :: us) ++ rest)
      = '&' :: '&' :: (spaced gap us ++ rest) := skipBlanks_spaced
  refine ⟨fuel', by omega, ?_⟩
  rw [spaced_append, List.append_assoc, List.length_cons, hread, hskip, ← hleft, readAndTail,
    hright]
  rfl

/-- Where no further operand of `&&` follows, the reader of such operands ends. -/
theorem ReadsConjunction.ends {fuel : Nat} (hpos : 0 < ts.length) (h : ReadsConjunction ts e)
    (hrest : Before ['|', ')'] rest) (hfuel : 4 * ts.length ≤ fuel + 2) :
    readAnd fuel (spaced gap ts ++ rest) = .ok (e, skipBlanks rest) := by
  obtain ⟨fuel', hfuel', hread⟩ := h gap rest fuel
    (fun c hc => List.mem_cons_of_mem _ (hrest c hc)) hfuel
  obtain _ | fuel' := fuel'
  · omega
  rw [hread]
  cases hskip : skipBlanks rest with
  | nil => rfl
  | cons c s =>
      have hc := hrest c (by rw [hskip]; rfl)
      simp only [List.mem_cons, List.not_mem_nil, or_false] at hc
      rcases hc with rfl | rfl <;> rfl

theorem ReadsConjunction.disjunction (hpos : 0 < ts.length) (h : ReadsConjunction ts e) :
    ReadsDisjunction ts e := by
  intro gap rest fuel hrest hfuel
  obtain _ | fuel := fuel
  · omega
  refine ⟨fuel, by omega, ?_⟩
  rw [readOr, h.ends hpos hrest (by omega)]
  show readOrTail fuel e (skipBlanks (skipBlanks rest)) = _
  rw [skipBlanks_skipBlanks]

theorem ReadsDisjunction.or (hl : ReadsDisjunction ts l) (hpos : 0 < us.length)
    (hr : ReadsConjunction us r) :
    ReadsDisjunction (ts ++ mark "||" (by decide) :: us) (.or l r) := by
  intro gap rest fuel hrest hfuel
  rw [List.length_append, List.length_cons] at hfuel ⊢
  obtain ⟨fuel', hfuel', hread⟩ := hl (fun i => gap (i + (us.length + 1)))
    (spaced gap (mark "||" (by decide) :: us) ++ rest) fuel (before_spaced rfl (by decide)) (by omega)
  obtain _ | fuel' := fuel'
  · omega
  have hskip : skipBlanks (spaced gap (mark "||" (by decide) :: us) ++ rest)
      = '|' :: '|' :: (spaced gap us ++ rest) := skipBlanks_spaced
  refine ⟨fuel', by omega, ?_⟩
  rw [spaced_append, List.append_assoc, List.length_cons, hread, hskip, readOrTail,
    hr.ends hpos hrest (by omega)]
  show readOrTail fuel' (GuardExpr.or l r) (skipBlanks (skipBlanks rest)) = _
  rw [skipBlanks_skipBlanks]

end Rules

/-! ### Expressions -/

namespace WrittenGuard

theorem length_tokens_pos (e : WrittenGuard) (level : Level) : 0 < (e.tokens level).length :=
  List.length_pos_iff.mpr (by cases e <;> cases level <;> simp [tokens, parenthesized])

/-- At each level an expression is read as what it is. -/
structure Reads (e : WrittenGuard) : Prop where
  operand : ReadsOperand (e.tokens .operand) e.expr
  conjunction : ReadsConjunction (e.tokens .conjunction) e.expr
  disjunction : ReadsDisjunction (e.tokens .disjunction) e.expr

/-- What is written alike at all levels is read at all of them if it is read as an operand. -/
theorem reads_of_operand {e : WrittenGuard} (hlevel : ∀ level, e.tokens level = e.tokens .operand)
    (h : ReadsOperand (e.tokens .operand) e.expr) : e.Reads := by
  have hpos := e.length_tokens_pos .operand
  have hconjunction := h.conjunction hpos
  exact ⟨h, by rwa [hlevel], by rw [hlevel]; exact hconjunction.disjunction hpos⟩

theorem reads (e : WrittenGuard) : e.Reads := by
  induction e with
  | truthy f => exact reads_of_operand (fun _ => rfl) (readsOperand_truthy f)
  | equal f v =>
      refine reads_of_operand (fun _ => rfl) (readsOperand_test ?_ fun _ _ hrest => ?_)
      · exact halts_cons.mpr (by decide)
      · exact readComparison_equal v hrest
  | notEqual f v =>
      refine reads_of_operand (fun _ => rfl) (readsOperand_test ?_ fun _ _ hrest => ?_)
      · exact halts_cons.mpr (by decide)
      · exact readComparison_notEqual v hrest
  | compare f c bound =>
      refine reads_of_operand (fun _ => rfl) (readsOperand_test ?_ fun _ _ hrest => ?_)
      · cases c <;> exact halts_cons.mpr (by decide)
      · exact readComparison_compare c bound hrest
  | and l r hl hr =>
      have hand : ReadsConjunction ((l.and r).tokens .conjunction) (l.and r).expr :=
        hl.conjunction.and hr.operand
      have hor := hand.disjunction ((l.and r).length_tokens_pos .conjunction)
      exact ⟨hor.parenthesized, hand, hor⟩
  | or l r hl hr =>
      have hor : ReadsDisjunction ((l.or r).tokens .disjunction) (l.or r).expr :=
        hl.disjunction.or (r.length_tokens_pos .conjunction) hr.conjunction
      have hoperand : ReadsOperand ((l.or r).tokens .operand) (l.or r).expr := hor.parenthesized
      exact ⟨hoperand, hoperand.conjunction ((l.or r).length_tokens_pos .operand), hor⟩
  | not e ih => exact reads_of_operand (fun _ => rfl) ih.operand.not

theorem readOr_skipBlanks {fuel : Nat} {s : List Char} :
    readOr fuel (skipBlanks s) = readOr fuel s := by
  obtain _ | _ | _ | fuel := fuel <;>
    simp only [readOr, readAnd, readOperand, skipBlanks_skipBlanks]

/-- **An expression is read back from its text as it was written, whatever white space stands
between its tokens and around them.** -/
theorem parse_text (gap : Nat → Gap) (e : WrittenGuard) : parse (e.text gap) = .ok e.expr := by
  have hpos := e.length_tokens_pos .disjunction
  have hreads := e.reads.disjunction
  unfold parse text
  rw [String.toList_ofList]
  generalize e.tokens .disjunction = ts at hpos hreads
  obtain ⟨t, us, rfl⟩ := List.exists_cons_of_length_pos hpos
  have hskip : skipBlanks (spaced gap (t :: us) ++ []) = t.chars ++ spaced gap us := by
    rw [skipBlanks_spaced, List.append_nil]
  -- each token has a character at least, so the fuel suffices
  have hfuel : 4 * (t :: us).length + 1 ≤ fuelFor (t.chars ++ spaced gap us) := by
    have ht := List.length_pos_iff.mpr t.nonempty
    have hus : us.length ≤ (spaced gap us).length := length_le_spaced
    rw [fuelFor, List.length_cons, List.length_append]
    omega
  obtain ⟨fuel', hfuel', hread⟩ := hreads gap [] (fuelFor (t.chars ++ spaced gap us))
    (by simp [Before, skipBlanks]) (by omega)
  obtain _ | fuel' := fuel'
  · omega
  rw [← readOr_skipBlanks, hskip] at hread
  have hend : readOr (fuelFor (t.chars ++ spaced gap us)) (t.chars ++ spaced gap us)
      = .ok (e.expr, []) := hread
  have hne : (t.chars ++ spaced gap us).isEmpty = false := by simp [t.nonempty]
  simp only [parseChars, trimBoth_spaced, hne, hend]
  rfl

end WrittenGuard

end Statechart
