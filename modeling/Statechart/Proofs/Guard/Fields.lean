/-
The fields of the expressions that are read.

All fields of an expression stand in its text as they are shown (`found_of_parse`), for every
reader hands on a last part of what it was given.  The readers of operands call each other, and
are taken together by the fuel that they share (`finds`).

Of the path of a field a reader sees that nothing but names and dots is in it, and what stands at
its ends.  So the names on a path are what names have to be, but those inside it may be empty:
where that is so, two dots stand in a row (`Field.Spelled.proper_iff`).  Nothing else is asked of a
field, and each that is spelled so is read (`parse_display_iff`).
-/
import Statechart.Proofs.Guard.Reading
import Statechart.Proofs.Outcome

namespace Statechart

open GuardExpr Outcome

/-- The fields that an expression refers to. -/
def GuardExpr.fields : GuardExpr → List Field
  | .truthy f => [f]
  | .equal f _ => [f]
  | .notEqual f _ => [f]
  | .compare f _ _ => [f]
  | .and left right => left.fields ++ right.fields
  | .or left right => left.fields ++ right.fields
  | .not inner => inner.fields

variable {t s rest : List Char} {f : Field} {e left : GuardExpr} {fuel : Nat}

/-! ### Paths and their names -/

namespace Field

/-- A path as it should be: the names by which the field is looked up are not empty, and of
letters, digits and underscores. -/
def Proper (f : Field) : Prop :=
  ∀ name ∈ Text.path f.path, name ≠ "" ∧ ∀ c ∈ name.toList, Text.isNameChar c = true

theorem Spelled.isNameChar (hf : f.Spelled) {name : String} (h : name ∈ Text.path f.path) {c : Char}
    (hc : c ∈ name.toList) : Text.isNameChar c = true := by
  obtain ⟨piece, hpiece, rfl⟩ := List.mem_map.mp h
  rw [String.toList_ofList] at hc
  obtain ⟨hpath, hdot⟩ := Text.mem_of_mem_pieces hpiece hc
  simpa [isPathChar, hdot] using hf.chars c hpath

/-- The path of a field that is read is as it should be, unless it has two dots in a row. -/
theorem Spelled.proper_iff (hf : f.Spelled) :
    f.Proper ↔ ¬ ['.', '.'] <:+: f.path.toList := by
  have hempty : "" ∈ Text.path f.path ↔ ['.', '.'] <:+: f.path.toList := by
    have hname : "" ∈ Text.path f.path ↔ [] ∈ Text.pieces '.' f.path.toList := by
      rw [Text.path, List.mem_map]
      constructor
      · rintro ⟨piece, hpiece, h⟩
        rw [← String.toList_inj, String.toList_ofList, String.toList_empty] at h
        exact h ▸ hpiece
      · exact fun h => ⟨[], h, rfl⟩
    rw [hname, Text.nil_mem_pieces_iff]
    simp [hf.nonempty, hf.first, hf.last]
  rw [← hempty]
  constructor
  · intro h hmem
    exact (h "" hmem).1 rfl
  · intro h name hname
    exact ⟨fun hnil => h (hnil ▸ hname), fun c => hf.isNameChar hname⟩

end Field

/-! ### What the readers leave -/

namespace GuardExpr

theorem suffix_skipBlanks : skipBlanks s <:+ s :=
  List.dropWhile_suffix _

theorem suffix_of_afterStart? {start : List Char} (h : Text.afterStart? start s = some rest) :
    rest <:+ s :=
  ⟨start, (Text.afterStart?_eq_some_iff.mp h).symm⟩

theorem suffix_takeUnsigned (negative : Bool) : (takeUnsigned negative s).2 <:+ s := by
  have hwhole : s.dropWhile Char.isDigit <:+ s := List.dropWhile_suffix _
  unfold takeUnsigned
  split
  · rename_i fraction hpoint
    rw [hpoint] at hwhole
    exact ((List.dropWhile_suffix _).trans (List.suffix_cons _ _)).trans hwhole
  · exact hwhole

theorem suffix_takeNumeral : (takeNumeral s).2 <:+ s := by
  by_cases hsign : s.head? = some '-'
  · obtain ⟨s, rfl⟩ := List.head?_eq_some_iff.mp hsign
    exact (suffix_takeUnsigned true).trans (List.suffix_cons _ _)
  · rw [takeNumeral_of_head?_ne hsign]
    exact suffix_takeUnsigned false

theorem suffix_readNumber {x : Float} (h : readNumber s = .ok (x, rest)) : rest <:+ s := by
  simp only [readNumber] at h
  split at h
  · cases h
    exact suffix_takeNumeral.trans suffix_skipBlanks
  · cases h

theorem suffix_readText {text : List Char} (h : readText s = .ok (text, rest)) : rest <:+ s := by
  induction s using readText.induct generalizing text rest with
  | case1 => cases h
  | case2 s =>
      cases h
      exact List.suffix_cons _ _
  | case3 => cases h
  | case4 c s ih =>
      obtain ⟨⟨_, _⟩, hread, hrest⟩ := bind_eq_ok.mp h
      cases hrest
      exact ((ih hread).trans (List.suffix_cons _ _)).trans (List.suffix_cons _ _)
  | case5 c s hquote hlone hescape ih =>
      rw [readText.eq_5 _ _ hquote hlone hescape] at h
      obtain ⟨⟨_, _⟩, hread, hrest⟩ := bind_eq_ok.mp h
      cases hrest
      exact (ih hread).trans (List.suffix_cons _ _)

theorem suffix_readLiteral {v : Literal} (h : readLiteral s = .ok (v, rest)) : rest <:+ s := by
  refine List.IsSuffix.trans ?_ suffix_skipBlanks
  simp only [readLiteral] at h
  split at h
  · rename_i hword
    cases h
    exact suffix_of_afterStart? hword
  split at h
  · rename_i hword
    cases h
    exact suffix_of_afterStart? hword
  split at h
  · rename_i hword
    cases h
    exact suffix_of_afterStart? hword
  split at h
  · rename_i s hquote
    obtain ⟨⟨_, _⟩, hread, hrest⟩ := bind_eq_ok.mp h
    cases hrest
    rw [hquote]
    exact (suffix_readText hread).trans (List.suffix_cons _ _)
  · obtain ⟨⟨x, _⟩, hread, hfinite⟩ := bind_eq_ok.mp h
    simp only [finiteLiteral] at hfinite
    split at hfinite
    · cases hfinite
      exact suffix_readNumber hread
    · cases hfinite

/-- What follows a field adds no further one. -/
theorem fields_readComparison (h : readComparison f s = .ok (e, rest)) :
    e.fields = [f] ∧ rest <:+ s := by
  unfold readComparison at h
  split at h
  case h_7 =>
    cases h
    exact ⟨rfl, List.suffix_rfl⟩
  all_goals
    obtain ⟨⟨_, _⟩, hread, hrest⟩ := bind_eq_ok.mp h
    cases hrest
    refine ⟨rfl, ?_⟩
  case h_1 | h_2 => exact (suffix_readLiteral hread).trans ⟨[_, _], rfl⟩
  case h_3 | h_4 => exact (suffix_readNumber hread).trans ⟨[_, _], rfl⟩
  case h_5 | h_6 => exact (suffix_readNumber hread).trans ⟨[_], rfl⟩

end GuardExpr

/-! ### What the readers find -/

/-- What a reader has found in a text: an expression whose fields all stand in it as they are
shown, and a last part of it that is left. -/
structure Found (t : List Char) (e : GuardExpr) (rest : List Char) : Prop where
  spelled : ∀ f ∈ e.fields, f.Spelled
  shown : ∀ f ∈ e.fields, f.display.toList <:+: t
  rest : rest <:+ t

namespace Found

theorem skip (h : Found t e rest) : Found t e (skipBlanks rest) :=
  { h with rest := suffix_skipBlanks.trans h.rest }

/-- Two operands, of which the second has been read behind the first. -/
theorem join {right : GuardExpr} (hleft : Found t left s) (hright : Found t right rest)
    (he : e.fields = left.fields ++ right.fields) : Found t e rest := by
  refine ⟨?_, ?_, hright.rest⟩ <;> rw [he]
  · exact List.forall_mem_append.mpr ⟨hleft.spelled, hright.spelled⟩
  · exact List.forall_mem_append.mpr ⟨hleft.shown, hright.shown⟩

/-- A field and what follows it. -/
theorem comparison {f : Field} {s' : List Char} (hs : s <:+ t) (hf : readField s = .ok (f, s'))
    (h : readComparison f (skipBlanks s') = .ok (e, rest)) : Found t e rest := by
  obtain ⟨hspelled, hstart, -⟩ := readField_eq_ok_iff.mp hf
  obtain ⟨hfields, hrest⟩ := fields_readComparison h
  have htext : f.display.toList ++ s' <:+ t := hstart ▸ suffix_skipBlanks.trans hs
  refine ⟨?_, ?_, ?_⟩
  · rw [hfields]
    exact List.forall_mem_singleton.mpr hspelled
  · rw [hfields]
    exact List.forall_mem_singleton.mpr ((List.prefix_append _ _).isInfix.trans htext.isInfix)
  · exact ((hrest.trans suffix_skipBlanks).trans (List.suffix_append _ _)).trans htext

end Found

/-- What the readers of operands find with some fuel, each behind what was read before it. -/
structure Finds (t : List Char) (fuel : Nat) : Prop where
  or : ∀ {s e rest}, s <:+ t → readOr fuel s = .ok (e, rest) → Found t e rest
  orTail : ∀ {left s e rest}, Found t left s → readOrTail fuel left s = .ok (e, rest) →
    Found t e rest
  and : ∀ {s e rest}, s <:+ t → readAnd fuel s = .ok (e, rest) → Found t e rest
  andTail : ∀ {left s e rest}, Found t left s → readAndTail fuel left s = .ok (e, rest) →
    Found t e rest
  operand : ∀ {s e rest}, s <:+ t → readOperand fuel s = .ok (e, rest) → Found t e rest

namespace Finds

theorem readOr_succ (ih : Finds t fuel) (hs : s <:+ t) (h : readOr (fuel + 1) s = .ok (e, rest)) :
    Found t e rest := by
  rw [readOr] at h
  obtain ⟨⟨left, s'⟩, hleft, h⟩ := bind_eq_ok.mp h
  exact ih.orTail (ih.and hs hleft).skip h

theorem readAnd_succ (ih : Finds t fuel) (hs : s <:+ t)
    (h : readAnd (fuel + 1) s = .ok (e, rest)) : Found t e rest := by
  rw [readAnd] at h
  obtain ⟨⟨left, s'⟩, hleft, h⟩ := bind_eq_ok.mp h
  exact ih.andTail (ih.operand hs hleft).skip h

theorem readOrTail_succ (ih : Finds t fuel) (hleft : Found t left s)
    (h : readOrTail (fuel + 1) left s = .ok (e, rest)) : Found t e rest := by
  unfold readOrTail at h
  split at h
  · obtain ⟨⟨right, s'⟩, hright, h⟩ := bind_eq_ok.mp h
    have hs : _ <:+ t := List.IsSuffix.trans ⟨[_, _], rfl⟩ hleft.rest
    exact ih.orTail (hleft.join (ih.and hs hright) rfl).skip h
  · cases h
    exact hleft

theorem readAndTail_succ (ih : Finds t fuel) (hleft : Found t left s)
    (h : readAndTail (fuel + 1) left s = .ok (e, rest)) : Found t e rest := by
  unfold readAndTail at h
  split at h
  · obtain ⟨⟨right, s'⟩, hright, h⟩ := bind_eq_ok.mp h
    have hs : _ <:+ t := List.IsSuffix.trans ⟨[_, _], rfl⟩ hleft.rest
    exact ih.andTail (hleft.join (ih.operand hs hright) rfl).skip h
  · cases h
    exact hleft

theorem readOperand_succ (ih : Finds t fuel) (hs : s <:+ t)
    (h : readOperand (fuel + 1) s = .ok (e, rest)) : Found t e rest := by
  have hskip : skipBlanks s <:+ t := suffix_skipBlanks.trans hs
  rw [readOperand] at h
  split at h
  · rename_i hmark
    rw [hmark] at hskip
    obtain ⟨⟨inner, _⟩, hinner, h⟩ := bind_eq_ok.mp h
    cases h
    have hfound := ih.operand ((List.suffix_cons _ _).trans hskip) hinner
    exact ⟨hfound.spelled, hfound.shown, hfound.rest⟩
  · rename_i hmark
    rw [hmark] at hskip
    obtain ⟨⟨inner, s'⟩, hinner, h⟩ := bind_eq_ok.mp h
    have hfound := (ih.or ((List.suffix_cons _ _).trans hskip) hinner).skip
    dsimp only at h
    split at h
    · rename_i hclose
      cases h
      rw [hclose] at hfound
      exact { hfound with rest := (List.suffix_cons _ _).trans hfound.rest }
    · cases h
  · obtain ⟨⟨f, s'⟩, hfield, h⟩ := bind_eq_ok.mp h
    exact .comparison hskip hfield h

end Finds

theorem finds (t : List Char) (fuel : Nat) : Finds t fuel := by
  induction fuel with
  | zero => constructor <;> intros <;> contradiction
  | succ fuel ih =>
      exact ⟨ih.readOr_succ, ih.readOrTail_succ, ih.readAnd_succ, ih.readAndTail_succ,
        ih.readOperand_succ⟩

/-! ### Whole texts -/

theorem isInfix_trimBoth {drop : Char → Bool} : Text.trimBoth drop s <:+: s := by
  have hback := List.reverse_prefix.mpr
    (List.dropWhile_suffix (l := (s.dropWhile drop).reverse) drop)
  rw [List.reverse_reverse] at hback
  exact hback.isInfix.trans (List.dropWhile_suffix drop).isInfix

/-- The fields of an expression that is read stand in its text. -/
theorem found_of_parse {text : String} (h : GuardExpr.parse text = .ok e) (hf : f ∈ e.fields) :
    f.Spelled ∧ f.display.toList <:+: text.toList := by
  simp only [GuardExpr.parse, parseChars] at h
  split at h
  · cases h
  obtain ⟨⟨e', rest⟩, hread, h⟩ := bind_eq_ok.mp h
  dsimp only at h
  split at h
  · cases h
    have hfound := (finds _ _).or List.suffix_rfl hread
    exact ⟨hfound.spelled f hf, (hfound.shown f hf).trans isInfix_trimBoth⟩
  · cases h

theorem Field.Spelled.not_isBlank (hf : f.Spelled) {c : Char} (hc : c ∈ f.display.toList) :
    Text.isBlank c = false := by
  rw [Field.toList_display, List.mem_append] at hc
  rcases hc with hc | hc
  · exact WrittenField.not_isBlank_of_mem_start c hc
  · exact not_isBlank_of_isPathChar (hf.chars c hc)

theorem skipBlanks_of_solid (h : ∀ c ∈ s, Text.isBlank c = false) : skipBlanks s = s :=
  skipBlanks_of_halts fun c hc => h c (List.mem_of_mem_head? hc)

/-- A text without white space loses nothing at its ends. -/
theorem trimBoth_of_solid (h : ∀ c ∈ s, Text.isBlank c = false) :
    Text.trimBoth Text.isBlank s = s := by
  have hback : skipBlanks s.reverse = s.reverse :=
    skipBlanks_of_solid fun c hc => h c (List.mem_reverse.mp hc)
  show (skipBlanks (skipBlanks s).reverse).reverse = s
  rw [skipBlanks_of_solid h, hback, List.reverse_reverse]

theorem readOperand_display (hf : f.Spelled) :
    readOperand (fuel + 1) f.display.toList = .ok (.truthy f, []) := by
  have hskip : skipBlanks f.display.toList = f.display.toList :=
    skipBlanks_of_solid fun _ => hf.not_isBlank
  have hfield : readField f.display.toList = .ok (f, []) :=
    readField_eq_ok_iff.mpr ⟨hf, by rw [hskip, List.append_nil], by simp [Halts]⟩
  rw [readOperand_of_start (hskip.trans Field.toList_display), hskip, hfield]
  rfl

/-- A field by itself is read exactly when its path is spelled as it has to be. -/
theorem parse_display_iff : GuardExpr.parse f.display = .ok (.truthy f) ↔ f.Spelled := by
  constructor
  · intro h
    exact (found_of_parse h (List.mem_singleton_self f)).1
  · intro hf
    have hread : ∀ fuel, readOr (fuel + 4) f.display.toList = .ok (.truthy f, []) := by
      intro fuel
      simp only [readOr, readAnd, readOperand_display hf]
      rfl
    have htrim := trimBoth_of_solid fun c => hf.not_isBlank (c := c)
    have hne : f.display.toList.isEmpty = false := by
      simp [Field.toList_display, hf.nonempty]
    simp only [GuardExpr.parse, parseChars, htrim, hne, fuelFor, hread]
    rfl

/-- **The fields of what is read.**  In every expression that is read each field stands in the
text as it is shown, its path begins and ends with a name, and the path is as it should be exactly
when it has no two dots in a row. -/
theorem fields_of_parse {text : String} (h : GuardExpr.parse text = .ok e) (hf : f ∈ e.fields) :
    f.display.toList <:+: text.toList ∧ f.Spelled ∧
      (f.Proper ↔ ¬ ['.', '.'] <:+: f.path.toList) := by
  obtain ⟨hspelled, hshown⟩ := found_of_parse h hf
  exact ⟨hshown, hspelled, hspelled.proper_iff⟩

/-- In a nested expression the fields are found wherever they stand; one of them has a name that
is empty. -/
theorem fields_of_parse_nested : ∃ e,
    GuardExpr.parse "ctx.a && !(event.b == null || ctx.c..d)" = .ok e ∧
      e.fields = [⟨.context, "a"⟩, ⟨.event, "b"⟩, ⟨.context, "c..d"⟩] ∧
      Field.Proper ⟨.event, "b"⟩ ∧ ¬ Field.Proper ⟨.context, "c..d"⟩ := by
  obtain ⟨e, he, hrun⟩ := exists_of_run
    (x := GuardExpr.parse "ctx.a && !(event.b == null || ctx.c..d)")
    (p := fun e => decide (e.fields = [⟨.context, "a"⟩, ⟨.event, "b"⟩, ⟨.context, "c..d"⟩]))
    (by decide +kernel)
  have hfields := of_decide_eq_true hrun
  have hproper := fun {f} (hf : f ∈ e.fields) => (fields_of_parse he hf).2.2
  refine ⟨e, he, hfields, (hproper (by simp [hfields])).mpr (by decide), fun h => ?_⟩
  exact (hproper (by simp [hfields])).mp h (by decide)

/-- Not every field that is read has a path as it should be. -/
theorem exists_improper_doubled : ¬ ∀ (text : String) (e : GuardExpr),
    GuardExpr.parse text = .ok e → ∀ f ∈ e.fields, f.Proper := by
  intro hall
  have hchars : "a..b".toList.all isPathChar = true := by decide
  have hspelled : Field.Spelled ⟨.context, "a..b"⟩ :=
    ⟨by decide, List.all_eq_true.mp hchars, by decide, by decide⟩
  have hproper := hall _ _ (parse_display_iff.mpr hspelled) _ (List.mem_singleton_self _)
  exact hspelled.proper_iff.mp hproper (by decide)

end Statechart
