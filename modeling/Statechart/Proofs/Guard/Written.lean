/-
Guard expressions as they are written.

The tokens of an expression are those that its precedence asks for, and no more: each operand
stands at a level (`WrittenGuard.Level`), and gets parentheses when it binds looser than its
level allows.  Between tokens stands any white space (`Gap`), or none.

A token begins and ends with a character that is not white space (`GuardToken`).  That is all
that a reader needs in order to find it behind a gap (`skipBlanks_spaced`), and all that is
needed to see that the white space around an expression goes and nothing else
(`trimBoth_spaced`).
-/
import Mathlib.Data.List.DropRight
import Statechart.Guard.Parser

namespace Statechart

open GuardExpr

/-! ### Where a scan stops -/

namespace GuardExpr

/-- Whether a text does not go on with characters of a kind. -/
def Halts (p : Char → Bool) (s : List Char) : Prop :=
  ∀ c ∈ s.head?, p c = false

section Halts

variable {p : Char → Bool} {s front : List Char}

@[simp] theorem halts_cons {c : Char} : Halts p (c :: s) ↔ p c = false := by simp [Halts]

theorem halts_append (hne : front ≠ []) : Halts p (front ++ s) ↔ Halts p front := by
  obtain ⟨c, rest, rfl⟩ := List.exists_cons_of_ne_nil hne
  rw [List.cons_append, halts_cons, halts_cons]

theorem Halts.imp {q : Char → Bool} (h : Halts p s) (hpq : ∀ c, q c = true → p c = true) :
    Halts q s := by
  intro c hc
  by_contra hq
  have hp := hpq c (by simpa using hq)
  rw [h c hc] at hp
  exact Bool.false_ne_true hp

theorem takeWhile_append_of_halts (hfront : ∀ c ∈ front, p c = true) (h : Halts p s) :
    (front ++ s).takeWhile p = front := by
  rw [List.takeWhile_append_of_pos hfront]
  cases s with
  | nil => simp
  | cons c rest => rw [List.takeWhile_cons_of_neg (by simp [halts_cons.mp h]), List.append_nil]

theorem dropWhile_append_of_halts (hfront : ∀ c ∈ front, p c = true) (h : Halts p s) :
    (front ++ s).dropWhile p = s := by
  rw [List.dropWhile_append_of_pos hfront]
  cases s with
  | nil => rfl
  | cons c rest => rw [List.dropWhile_cons_of_neg (by simp [halts_cons.mp h])]

theorem halts_dropWhile : Halts p (s.dropWhile p) := by
  intro c hc
  have h := List.head?_dropWhile_not p s
  rw [Option.mem_def.mp hc] at h
  exact h

end Halts

end GuardExpr

/-! ### Tokens and the white space between them -/

/-- White space in front of a token, or none. -/
abbrev Gap := { s : List Char // ∀ c ∈ s, Text.isBlank c = true }

/-- A part of an expression that is written without white space around it. -/
structure GuardToken where
  chars : List Char
  nonempty : chars ≠ []
  starts : Halts Text.isBlank chars
  ends : Halts Text.isBlank chars.reverse

theorem skipBlanks_of_halts {s : List Char} (h : Halts Text.isBlank s) : skipBlanks s = s := by
  cases s with
  | nil => rfl
  | cons c rest => exact List.dropWhile_cons_of_neg (by simp [halts_cons.mp h])

theorem skipBlanks_gap {s : List Char} (g : Gap) : skipBlanks (g.val ++ s) = skipBlanks s :=
  List.dropWhile_append_of_pos g.property

theorem skipBlanks_skipBlanks {s : List Char} : skipBlanks (skipBlanks s) = skipBlanks s :=
  List.dropWhile_idempotent Text.isBlank s

namespace GuardToken

variable {gap : Nat → Gap} {t : GuardToken} {ts us : List GuardToken} {rest : List Char}

/-- A token none of whose characters is white space. -/
def solid (chars : List Char) (nonempty : chars ≠ [])
    (h : ∀ c ∈ chars, Text.isBlank c = false) : GuardToken where
  chars := chars
  nonempty := nonempty
  starts c hc := h c (List.mem_of_mem_head? hc)
  ends c hc := h c (List.mem_reverse.mp (List.mem_of_mem_head? hc))

/-- A token with a text of its own. -/
def mark (s : String) (h : s.toList ≠ [] ∧ s.toList.any Text.isBlank = false) : GuardToken :=
  .solid s.toList h.1 (by simpa using h.2)

@[simp] theorem mark_chars {s : String} {h : s.toList ≠ [] ∧ s.toList.any Text.isBlank = false} :
    (mark s h).chars = s.toList := rfl

/-- Tokens with white space in front of each; the gaps are numbered from the end. -/
def spaced (gap : Nat → Gap) : List GuardToken → List Char
  | [] => []
  | t :: rest => (gap (rest.length + 1)).val ++ (t.chars ++ spaced gap rest)

theorem spaced_append :
    spaced gap (ts ++ us) = spaced (fun i => gap (i + us.length)) ts ++ spaced gap us := by
  induction ts with
  | nil => rfl
  | cons t ts ih =>
      simp only [List.cons_append, spaced, ih, List.append_assoc, List.length_append,
        Nat.add_right_comm]

/-- The first token stands behind white space. -/
theorem skipBlanks_spaced :
    skipBlanks (spaced gap (t :: ts) ++ rest) = t.chars ++ (spaced gap ts ++ rest) := by
  rw [spaced, List.append_assoc, List.append_assoc, skipBlanks_gap]
  exact skipBlanks_of_halts ((halts_append t.nonempty).mpr t.starts)

theorem skipBlanks_singleton (gap : Nat → Gap) :
    skipBlanks (spaced gap [t] ++ rest) = t.chars ++ rest :=
  skipBlanks_spaced

theorem halts_spaced {p : Char → Bool} (hblank : ∀ c, Text.isBlank c = true → p c = false)
    (ht : Halts p t.chars) : Halts p (spaced gap (t :: ts) ++ rest) := by
  rw [spaced, List.append_assoc, List.append_assoc]
  obtain ⟨_ | ⟨c, g⟩, hg⟩ := gap (ts.length + 1)
  · exact (halts_append t.nonempty).mpr ht
  · exact halts_cons.mpr (hblank c (hg c (List.mem_cons_self ..)))

theorem length_le_spaced : ts.length ≤ (spaced gap ts).length := by
  induction ts with
  | nil => exact Nat.le_refl _
  | cons t ts ih =>
      have ht := List.length_pos_iff.mpr t.nonempty
      simp only [spaced, List.length_append, List.length_cons]
      omega

/-- Tokens end as the last of them does. -/
theorem halts_reverse : Halts Text.isBlank (t.chars ++ spaced gap ts).reverse := by
  induction ts generalizing t with
  | nil => rw [spaced, List.append_nil]; exact t.ends
  | cons u ts ih =>
      have hne : (u.chars ++ spaced gap ts).reverse ≠ [] := by simp [u.nonempty]
      rw [spaced, ← List.append_assoc, List.reverse_append, halts_append hne]
      exact ih

/-- The white space around tokens goes, and nothing else. -/
theorem trimBoth_spaced (g : Gap) :
    Text.trimBoth Text.isBlank (spaced gap (t :: ts) ++ g.val) = t.chars ++ spaced gap ts := by
  have hfront : (spaced gap (t :: ts) ++ g.val).dropWhile Text.isBlank
      = (t.chars ++ spaced gap ts) ++ g.val := by
    rw [List.append_assoc]
    exact skipBlanks_spaced
  have hback : ∀ c ∈ g.val.reverse, Text.isBlank c = true := fun c hc =>
    g.property c (List.mem_reverse.mp hc)
  rw [Text.trimBoth, hfront, List.reverse_append, dropWhile_append_of_halts hback halts_reverse,
    List.reverse_reverse]

end GuardToken

/-! ### Fields, numerals and literals -/

/-- The code points of white space, one by one. -/
def blankCodes : List Nat :=
  List.range' 9 5 ++ [0x20, 0x85, 0xA0, 0x1680] ++ List.range' 0x2000 11 ++
    [0x2028, 0x2029, 0x202F, 0x205F, 0x3000]

theorem toNat_mem_blankCodes {c : Char} (h : Text.isBlank c = true) : c.toNat ∈ blankCodes := by
  simp only [Text.isBlank, Text.wideBlanks, List.any_cons, List.any_nil] at h
  simp only [blankCodes, List.range', List.mem_append, List.mem_cons, List.not_mem_nil, or_false]
  split at h <;> simp at h <;> omega

/-- White space stands in no path. -/
theorem not_isPathChar_of_isBlank {c : Char} (h : Text.isBlank c = true) :
    isPathChar c = false := by
  have hall : ∀ n ∈ blankCodes, isPathChar (Char.ofNat n) = false := by decide +kernel
  have hc := hall c.toNat (toNat_mem_blankCodes h)
  rwa [Char.ofNat_toNat] at hc

theorem not_isBlank_of_isPathChar {c : Char} (h : isPathChar c = true) :
    Text.isBlank c = false := by
  by_contra hblank
  rw [not_isPathChar_of_isBlank (by simpa using hblank)] at h
  exact Bool.false_ne_true h

/-- Digits and points are among the characters of paths. -/
theorem isPathChar_of_isDigit {c : Char} (h : c.isDigit = true) : isPathChar c = true := by
  simp [isPathChar, Text.isNameChar, Text.isLetterOrDigit, Char.isAlphanum, h]

/-- A name on the path of a field. -/
structure PathName where
  chars : List Char
  nonempty : chars ≠ []
  letters : ∀ c ∈ chars, Text.isNameChar c = true

theorem PathName.dot_not_mem (name : PathName) : '.' ∉ name.chars := fun h =>
  absurd (name.letters '.' h) (by decide)

/-- A field by its source and the names on its path. -/
structure WrittenField where
  source : FieldSource
  first : PathName
  others : List PathName

namespace WrittenField

variable (f : WrittenField)

/-- The names with a dot between each two. -/
def path : List Char :=
  f.first.chars ++ f.others.flatMap fun name => '.' :: name.chars

def field : Field :=
  ⟨f.source, String.ofList f.path⟩

variable {f}

theorem isPathChar_of_mem_path {c : Char} (h : c ∈ f.path) : isPathChar c = true := by
  rcases List.mem_append.mp h with h | h
  · simp [isPathChar, f.first.letters c h]
  · obtain ⟨name, -, h⟩ := List.mem_flatMap.mp h
    rcases List.mem_cons.mp h with rfl | h
    · simp [isPathChar]
    · simp [isPathChar, name.letters c h]

theorem path_ne_nil : f.path ≠ [] := fun h => f.first.nonempty (List.append_eq_nil_iff.mp h).1

/-- A path begins with a name. -/
theorem head?_path : f.path.head? ≠ some '.' := by
  intro h
  rw [path, List.head?_append, List.head?_eq_some_head f.first.nonempty, Option.some_or] at h
  exact f.first.dot_not_mem (Option.some.inj h ▸ List.head_mem _)

/-- A path ends with a name. -/
theorem getLast?_path : f.path.getLast? ≠ some '.' := by
  -- what stands before the last name does not matter
  obtain ⟨front, name, hpath⟩ : ∃ front name, f.path = front ++ PathName.chars name := by
    rcases List.eq_nil_or_concat f.others with hothers | ⟨init, last, hothers⟩
    · exact ⟨[], f.first, by simp [path, hothers]⟩
    · exact ⟨f.first.chars ++ init.flatMap (fun name => '.' :: name.chars) ++ ['.'], last,
        by simp [path, hothers]⟩
  intro h
  rw [hpath, List.getLast?_append, List.getLast?_eq_some_getLast name.nonempty,
    Option.some_or] at h
  exact name.dot_not_mem (Option.some.inj h ▸ List.getLast_mem _)

end WrittenField

/-- What the path of a field has to be so that the field is read: no more than its ends are
looked at. -/
structure Field.Spelled (f : Field) : Prop where
  nonempty : f.path.toList ≠ []
  chars : ∀ c ∈ f.path.toList, isPathChar c = true
  first : f.path.toList.head? ≠ some '.'
  last : f.path.toList.getLast? ≠ some '.'

theorem WrittenField.spelled (f : WrittenField) : f.field.Spelled := by
  constructor <;> rw [field, String.toList_ofList]
  · exact path_ne_nil
  · exact fun c => isPathChar_of_mem_path
  · exact head?_path
  · exact getLast?_path

/-- How a field with a source begins. -/
def FieldSource.start : FieldSource → List Char
  | .context => "ctx.".toList
  | .event => "event.".toList

theorem Field.toList_display {f : Field} :
    f.display.toList = f.source.start ++ f.path.toList := by
  unfold Field.display FieldSource.start
  cases f.source <;> simp

namespace WrittenField

variable {f : WrittenField}

theorem toList_display : f.field.display.toList = f.source.start ++ f.path := by
  rw [Field.toList_display, field, String.toList_ofList]

theorem not_isBlank_of_mem_start {source : FieldSource} :
    ∀ c ∈ source.start, Text.isBlank c = false := by
  have h : source.start.any Text.isBlank = false := by cases source <;> decide
  simpa using h

def token (f : WrittenField) : GuardToken :=
  .solid (f.source.start ++ f.path) (by simp [path_ne_nil]) fun c hc =>
    (List.mem_append.mp hc).elim (not_isBlank_of_mem_start c) fun hc =>
      not_isBlank_of_isPathChar (isPathChar_of_mem_path hc)

/-- The token of a field is what is shown for it. -/
theorem token_chars : f.token.chars = f.field.display.toList :=
  toList_display.symm

end WrittenField

namespace GuardExpr.Numeral

/-- The digits of a numeral on both sides of the point. -/
def digits (n : Numeral) : List Char :=
  n.whole ++ n.fraction.getD []

theorem mem_text_of_mem_digits {n : Numeral} {c : Char} (h : c ∈ n.digits) : c ∈ n.text := by
  obtain ⟨negative, whole, _ | fraction⟩ := n <;> simp [digits, text] at h ⊢ <;> tauto

/-- What a numeral is made of. -/
theorem mem_text {n : Numeral} {c : Char} (h : c ∈ n.text) :
    n.negative = true ∧ c = '-' ∨ c = '.' ∨ c ∈ n.digits := by
  obtain ⟨negative, whole, _ | fraction⟩ := n <;> simp [digits, text] at h ⊢ <;> tauto

end GuardExpr.Numeral

/-- A numeral with a digit at least, and with nothing else for a digit. -/
structure WrittenNumber where
  numeral : Numeral
  nonempty : numeral.digits ≠ []
  digits : ∀ c ∈ numeral.digits, c.isDigit = true

namespace WrittenNumber

variable (n : WrittenNumber)

theorem isSome_value? : n.numeral.value?.isSome = true := by
  have hdigits : (n.numeral.digits.isEmpty) = false := by simp [n.nonempty]
  rw [Numeral.digits] at hdigits
  simp [Numeral.value?, hdigits]

/-- The double that is nearest to the numeral. -/
def value : Float :=
  n.numeral.value?.get n.isSome_value?

theorem value?_eq : n.numeral.value? = some n.value :=
  (Option.some_get _).symm

theorem text_ne_nil : n.numeral.text ≠ [] := by
  obtain ⟨c, hc⟩ := List.exists_mem_of_ne_nil _ n.nonempty
  exact List.ne_nil_of_mem (Numeral.mem_text_of_mem_digits hc)

/-- What a number is written with. -/
theorem mem_text {c : Char} (h : c ∈ n.numeral.text) :
    n.numeral.negative = true ∧ c = '-' ∨ c = '.' ∨ c.isDigit = true :=
  (Numeral.mem_text h).imp_right fun h => h.imp_right (n.digits c)

theorem not_mem_text {c : Char} (h : (c == '-' || c == '.' || c.isDigit) = false) :
    c ∉ n.numeral.text := by
  intro hc
  simp only [Bool.or_eq_false_iff, beq_eq_false_iff_ne] at h
  rcases n.mem_text hc with ⟨-, hc⟩ | hc | hc
  · exact h.1.1 hc
  · exact h.1.2 hc
  · exact Bool.false_ne_true (h.2.symm.trans hc)

def token : GuardToken :=
  .solid n.numeral.text n.text_ne_nil fun c hc => by
    rcases n.mem_text hc with ⟨-, rfl⟩ | rfl | hc
    · decide
    · decide
    · exact not_isBlank_of_isPathChar (isPathChar_of_isDigit hc)

end WrittenNumber

/-- A text with a backslash in front of each quote and each backslash. -/
def escaped (s : List Char) : List Char :=
  s.flatMap fun c => if c = '"' ∨ c = '\\' then ['\\', c] else [c]

/-- A literal as it is written. -/
inductive WrittenLiteral
  | bool (value : Bool)
  | null
  | string (value : String)
  | number (n : WrittenNumber) (finite : n.value.isFinite = true)

namespace WrittenLiteral

def literal : WrittenLiteral → Literal
  | .bool value => .bool value
  | .null => .null
  | .string value => .string value
  | .number n _ => .number n.value

def token : WrittenLiteral → GuardToken
  | .bool true => .mark "true" (by decide)
  | .bool false => .mark "false" (by decide)
  | .null => .mark "null" (by decide)
  | .string value =>
    { chars := '"' :: (escaped value.toList ++ ['"'])
      nonempty := List.cons_ne_nil _ _
      starts := by rw [halts_cons]; decide
      ends := by
        rw [List.reverse_cons, List.reverse_append, List.reverse_singleton,
          List.singleton_append, List.cons_append, halts_cons]
        decide }
  | .number n _ => n.token

end WrittenLiteral

/-! ### Expressions -/

def Comparison.token : Comparison → GuardToken
  | .greater => .mark ">" (by decide)
  | .greaterOrEqual => .mark ">=" (by decide)
  | .less => .mark "<" (by decide)
  | .lessOrEqual => .mark "<=" (by decide)

/-- An expression as it is written. -/
inductive WrittenGuard
  | truthy (field : WrittenField)
  | equal (field : WrittenField) (value : WrittenLiteral)
  | notEqual (field : WrittenField) (value : WrittenLiteral)
  | compare (field : WrittenField) (comparison : Comparison) (bound : WrittenNumber)
  | and (left right : WrittenGuard)
  | or (left right : WrittenGuard)
  | not (inner : WrittenGuard)

namespace WrittenGuard

/-- What is expected where an expression stands: operands of `||` and what binds tighter,
operands of `&&` and what binds tighter, or what binds tighter than both. -/
inductive Level
  | disjunction
  | conjunction
  | operand

/-- The expression that is written. -/
def expr : WrittenGuard → GuardExpr
  | .truthy f => .truthy f.field
  | .equal f v => .equal f.field v.literal
  | .notEqual f v => .notEqual f.field v.literal
  | .compare f c bound => .compare f.field c bound.value
  | .and l r => .and l.expr r.expr
  | .or l r => .or l.expr r.expr
  | .not e => .not e.expr

def parenthesized (ts : List GuardToken) : List GuardToken :=
  .mark "(" (by decide) :: (ts ++ [.mark ")" (by decide)])

/-- The tokens of an expression at a level.  A left operand stands at the level of its
expression and a right one at the next, because both connectives group to the left. -/
def tokens : WrittenGuard → Level → List GuardToken
  | .truthy f, _ => [f.token]
  | .equal f v, _ => [f.token, .mark "==" (by decide), v.token]
  | .notEqual f v, _ => [f.token, .mark "!=" (by decide), v.token]
  | .compare f c bound, _ => [f.token, c.token, bound.token]
  | .not e, _ => .mark "!" (by decide) :: e.tokens .operand
  | .and l r, level =>
    let joined := l.tokens .conjunction ++ .mark "&&" (by decide) :: r.tokens .operand
    match level with
    | .operand => parenthesized joined
    | _ => joined
  | .or l r, level =>
    let joined := l.tokens .disjunction ++ .mark "||" (by decide) :: r.tokens .conjunction
    match level with
    | .disjunction => joined
    | _ => parenthesized joined

/-- The text of an expression with white space in front of each token and after the last. -/
def text (gap : Nat → Gap) (e : WrittenGuard) : String :=
  String.ofList (GuardToken.spaced gap (e.tokens .disjunction) ++ (gap 0).val)

example :
    let test (c : Char) (h : Text.isNameChar c = true) : WrittenGuard :=
      .truthy ⟨.context, ⟨[c], List.cons_ne_nil _ _, by simpa using h⟩, []⟩
    let a := test 'a' (by decide)
    let b := test 'b' (by decide)
    let c := test 'c' (by decide)
    let text := text fun _ => ⟨[' '], List.forall_mem_singleton.mpr (by decide)⟩
    text (.or (.or a b.not) (.and b c)) = " ctx.a || ! ctx.b || ctx.b && ctx.c " ∧
      text (.and (.or a b) (.and b c)) = " ( ctx.a || ctx.b ) && ( ctx.b && ctx.c ) " := by
  decide +kernel

end WrittenGuard

end Statechart
