/-
How far a value reaches in a text.

A reader that has found a value has used the first part of the text and left the rest.  What
it found, and how much it used, does not depend on that rest, unless a numeral goes on in it
(`Uses`): an array and an object are closed by their brackets, and everything else is a token.
The steps that a reader takes are bounded by what it uses, so that fuel plays no part either.

What is used does not end in white space.  So white space around a value is not part of it,
and a text without it stands for the same value (`parse_trim`).
-/
import Statechart.Proofs.Json.Tokens
import Statechart.Proofs.Outcome

namespace Statechart.Json

open Outcome
open GuardExpr (Halts halts_cons halts_append dropWhile_append_of_halts)

variable {s t used front rest : List Char} {c : Char} {raw : Raw}

/-! ### What a reader uses -/

/-- A reader uses the first part of a text for what it finds, whatever follows that part, and
takes no more steps than the part has characters, counted three times. -/
structure Uses {α : Type} (read : Nat → List Char → Reading α) (cost : Nat) (used : List Char)
    (x : α) : Prop where
  nonempty : used ≠ []
  starts : Halts Text.isBlank used
  ends : Halts Text.isBlank used.reverse
  finds : ∀ fuel rest, 3 * used.length + cost ≤ fuel → Halts goesOn rest →
    read fuel (used ++ rest) = (x, some rest)

/-- What a reader finds with some fuel, it finds by using the text from its first token up to
what it leaves. -/
def Finds {α : Type} (read : Nat → List Char → Reading α) (cost fuel : Nat) : Prop :=
  ∀ s x rest, read fuel s = (x, some rest) →
    ∃ used, afterSpace s = used ++ rest ∧ Uses read cost used x

theorem Uses.of_head {α : Type} {read : Nat → List Char → Reading α} {cost : Nat}
    {tail : List Char} {x : α} (hblank : Text.isBlank c = false)
    (hends : Halts Text.isBlank (c :: tail).reverse)
    (hfinds : ∀ fuel rest, 3 * tail.length + cost + 2 ≤ fuel → Halts goesOn rest →
      read (fuel + 1) (c :: (tail ++ rest)) = (x, some rest)) : Uses read cost (c :: tail) x where
  nonempty := by simp
  starts := halts_cons.mpr hblank
  ends := hends
  finds fuel rest hfuel hrest := by
    rw [List.length_cons] at hfuel
    obtain ⟨fuel, rfl⟩ : ∃ n, fuel = n + 1 := ⟨fuel - 1, by omega⟩
    exact hfinds fuel rest (by omega) hrest

/-! ### Values -/

section Values

variable {fuel : Nat} {start : Bool}

theorem skipsSpace_readValue : SkipsSpace (readValue fuel) := by
  intro front s hfront
  cases fuel with
  | zero => rfl
  | succ fuel => rw [readValue, readValue, afterSpace_append hfront]

theorem skipsSpace_readItems : SkipsSpace (readItems fuel start) := by
  intro front s hfront
  cases fuel with
  | zero => rfl
  | succ fuel => rw [readItems, readItems, afterSpace_append hfront]

theorem skipsSpace_readMembers : SkipsSpace (readMembers fuel start) := by
  intro front s hfront
  cases fuel with
  | zero => rfl
  | succ fuel => rw [readMembers, readMembers, afterSpace_append hfront]

theorem skipsSpace_readMember : SkipsSpace (readMember fuel) := by
  intro front s hfront
  cases fuel with
  | zero => rfl
  | succ fuel => rw [readMember, readMember, afterSpace_append hfront]

theorem readValue_number (hc : (c = '-' || c.isDigit) = true) :
    readValue (fuel + 1) (c :: s) = readNumber (c :: s) := by
  have hspace : isSpace c = false := by
    rcases Bool.or_eq_true_iff.mp hc with h | h
    · rw [of_decide_eq_true h]
      decide
    · exact Bool.eq_false_iff.mpr fun hs =>
        absurd (isBlank_of_isSpace hs) (by rw [not_isBlank_of_isDigit h]; decide)
  rw [readValue, afterSpace_cons hspace]
  -- None of the other tokens begins with a digit or a minus sign.
  split <;> rename_i heq <;> cases heq
  all_goals first | exact absurd hc (by decide) | exact if_pos hc

theorem uses_word {word : List Char} {naming : Fault} (hblank : Text.isBlank c = false)
    (hends : Halts Text.isBlank (c :: word).reverse)
    (hread : ∀ fuel s, readValue (fuel + 1) (c :: s) = readWord raw naming word s) :
    Uses readValue 1 (c :: word) raw :=
  .of_head hblank hends fun fuel rest' _ _ => by
    rw [hread, readWord_eq_some]
    exact ⟨rfl, rfl⟩

/-- An array or an object reaches as far as what stands behind its bracket. -/
theorem uses_bracket {α : Type} {inner : Nat → List Char → Reading α} {wrap : α → Raw}
    {cost : Nat} {spaces : List Char} {x : α} (hcost : cost ≤ 3)
    (hblank : Text.isBlank c = false) (hskip : ∀ fuel, SkipsSpace (inner fuel))
    (hread : ∀ fuel s x rest, inner fuel s = (x, some rest) →
      readValue (fuel + 1) (c :: s) = (wrap x, some rest))
    (hspaces : ∀ c ∈ spaces, isSpace c = true) (hused : Uses inner cost used x) :
    Uses readValue 1 (c :: (spaces ++ used)) (wrap x) := by
  refine .of_head hblank (halts_reverse_append (c :: spaces) hused.nonempty hused.ends)
    fun fuel rest hfuel hrest => hread fuel _ x rest ?_
  rw [List.length_append] at hfuel
  rw [List.append_assoc, hskip fuel _ _ hspaces]
  exact hused.finds fuel rest (by omega) hrest

theorem readValue_array {items : Raw.Items} (h : readItems fuel true s = (items, some rest)) :
    readValue (fuel + 1) ('[' :: s) = (.array items, some rest) := by
  rw [readValue, afterSpace_cons (by decide)]
  simp only [h]

theorem readValue_object {members : Raw.Members}
    (h : readMembers fuel true s = (members, some rest)) :
    readValue (fuel + 1) ('\x7b' :: s) = (.object members, some rest) := by
  rw [readValue, afterSpace_cons (by decide)]
  simp only [h]

theorem finds_value (hitems : Finds (readItems · true) 2 fuel)
    (hmembers : Finds (readMembers · true) 3 fuel) : Finds readValue 1 (fuel + 1) := by
  intro s raw rest h
  rw [readValue] at h
  split at h
  · simp [Raw.truncated] at h
  · rename_i after heq
    obtain ⟨body, rfl, hbody⟩ := exists_quoted h
    refine ⟨'"' :: (body ++ ['"']), by simp [heq], .of_head (by decide)
      (halts_reverse_concat ('"' :: body) (by decide)) fun fuel rest' _ _ => ?_⟩
    rw [readValue, afterSpace_cons (by decide)]
    simp [hbody]
  · rename_i after heq
    rw [Prod.mk.injEq] at h
    obtain ⟨rfl, hrest⟩ := h
    obtain ⟨used, hafter, hused⟩ := hitems _ _ _ (Prod.ext rfl hrest)
    obtain ⟨spaces, rfl, hspaces⟩ := exists_spaces hafter
    exact ⟨'[' :: (spaces ++ used), by simp [heq], uses_bracket (by decide) (by decide)
      (fun _ => skipsSpace_readItems) (fun _ _ _ _ => readValue_array) hspaces hused⟩
  · rename_i after heq
    rw [Prod.mk.injEq] at h
    obtain ⟨rfl, hrest⟩ := h
    obtain ⟨used, hafter, hused⟩ := hmembers _ _ _ (Prod.ext rfl hrest)
    obtain ⟨spaces, rfl, hspaces⟩ := exists_spaces hafter
    exact ⟨'\x7b' :: (spaces ++ used), by simp [heq], uses_bracket (by decide) (by decide)
      (fun _ => skipsSpace_readMembers) (fun _ _ _ _ => readValue_object) hspaces hused⟩
  · rename_i after heq
    obtain ⟨rfl, rfl⟩ := readWord_eq_some.mp h
    exact ⟨_, heq, uses_word (by decide) (halts_reverse_concat ['n', 'u', 'l'] (by decide))
      fun _ _ => rfl⟩
  · rename_i after heq
    obtain ⟨rfl, rfl⟩ := readWord_eq_some.mp h
    exact ⟨_, heq, uses_word (by decide) (halts_reverse_concat ['t', 'r', 'u'] (by decide))
      fun _ _ => rfl⟩
  · rename_i after heq
    obtain ⟨rfl, rfl⟩ := readWord_eq_some.mp h
    exact ⟨_, heq, uses_word (by decide) (halts_reverse_concat ['f', 'a', 'l', 's'] (by decide))
      fun _ _ => rfl⟩
  · rename_i c after _ _ _ _ _ _ heq
    split at h
    · rename_i hc
      obtain ⟨used, hs, hne, hused⟩ := exists_number h
      obtain ⟨first, more, rfl⟩ := List.exists_cons_of_ne_nil hne
      rw [List.cons_append, List.cons.injEq] at hs
      obtain ⟨rfl, rfl⟩ := hs
      have hblank : Text.isBlank c = false := by
        rcases Bool.or_eq_true_iff.mp hc with hminus | hdigit
        · rw [of_decide_eq_true hminus]
          decide
        · exact not_isBlank_of_isDigit hdigit
      refine ⟨_, heq, .of_head hblank hused.ends fun fuel rest' _ hrest' => ?_⟩
      rw [readValue_number hc]
      exact hused.finds rest' hrest'
    · simp at h

/-! ### Lists of items and of members -/

/-- A value and what a reader makes of the rest. -/
def followed {α : Type} (next : Nat → List Char → Reading α) (join : Raw → α → α) (closed : α)
    (fuel : Nat) (s : List Char) : Reading α :=
  let (value, after) := readValue fuel s
  match after with
  | none => (join value closed, none)
  | some after =>
    let (x, after) := next fuel after
    (join value x, after)

section Lists

variable {α : Type} {next list element : Nat → List Char → Reading α} {join : Raw → α → α}
  {closed x : α} {close : Char} {cost : Nat}

theorem followed_eq_some : followed next join closed fuel s = (x, some rest) ↔
    ∃ value after y, readValue fuel s = (value, some after) ∧ next fuel after = (y, some rest) ∧
      x = join value y := by
  unfold followed
  cases hvalue : readValue fuel s with
  | mk value after =>
      cases after with
      | none => simp
      | some after =>
          cases hnext : next fuel after with
          | mk y left => simp [hnext, eq_comm, and_comm]

theorem skipsSpace_followed : SkipsSpace (followed next join closed fuel) := by
  intro front s hfront
  rw [followed, followed, skipsSpace_readValue front s hfront]

theorem finds_followed (hcost : cost ≤ 4)
    (hskip : ∀ fuel, SkipsSpace (next fuel))
    (hhalts : ∀ s x rest, next fuel s = (x, some rest) → Halts goesOn s)
    (hvalue : Finds readValue 1 fuel) (hnext : Finds next cost fuel) :
    Finds (followed next join closed) 1 fuel := by
  intro s x rest h
  obtain ⟨value, after, y, hread, hrest, rfl⟩ := followed_eq_some.mp h
  obtain ⟨used, hs, hused⟩ := hvalue _ _ _ hread
  obtain ⟨more, hafter, hmore⟩ := hnext _ _ _ hrest
  obtain ⟨spaces, rfl, hspaces⟩ := exists_spaces hafter
  have hlength := List.length_pos_iff.mpr hused.nonempty
  refine ⟨used ++ (spaces ++ more), by simp [hs], by simp [hused.nonempty],
    (halts_append hused.nonempty).mpr hused.starts, ?_, fun fuel rest' hfuel hrest' => ?_⟩
  · rw [← List.append_assoc]
    exact halts_reverse_append (used ++ spaces) hmore.nonempty hmore.ends
  · rw [List.length_append, List.length_append] at hfuel
    have hgoes : Halts goesOn (spaces ++ more ++ rest') :=
      (halts_append (by simp [hmore.nonempty])).mpr
        ((halts_append (by simp [hmore.nonempty])).mp
          (List.append_assoc spaces more rest ▸ hhalts _ _ _ hrest))
    refine followed_eq_some.mpr ⟨value, spaces ++ (more ++ rest'), y, ?_, ?_, rfl⟩
    · rw [List.append_assoc, ← List.append_assoc spaces]
      exact hused.finds fuel _ (by omega) hgoes
    · rw [hskip _ _ _ hspaces, hmore.finds fuel rest' (by omega) hrest']

/-- A list that is read up to its closing bracket: elements, and commas but before the
first. -/
structure IsListOf (start : Bool) (close : Char) (closed : α)
    (list element : Nat → List Char → Reading α) : Prop where
  starved : ∀ s x rest, list 0 s ≠ (x, some rest)
  step : ∀ fuel s x rest, list (fuel + 1) s = (x, some rest) ↔
    (afterSpace s = close :: rest ∧ x = closed) ∨
      ∃ c t, afterSpace s = c :: t ∧ c ≠ close ∧ (start = true ∨ c = ',') ∧
        element fuel (if start then c :: t else t) = (x, some rest)

theorem IsListOf.halts (h : IsListOf false close closed list element)
    (hclose : goesOn close = false) (hread : list fuel s = (x, some rest)) : Halts goesOn s := by
  cases fuel with
  | zero => exact absurd hread (h.starved s x rest)
  | succ fuel =>
      rcases (h.step ..).mp hread with ⟨heq, -⟩ | ⟨c, t, heq, -, hc, -⟩
      · exact halts_of_afterSpace heq hclose
      · rw [hc.resolve_left (by decide)] at heq
        exact halts_of_afterSpace heq (by decide)

theorem IsListOf.finds (h : IsListOf start close closed list element)
    (hclose : Text.isBlank close = false)
    (hskip : ∀ fuel, SkipsSpace (element fuel))
    (helement : Finds element cost fuel) : Finds list (cost + 1) (fuel + 1) := by
  intro s x rest hread
  rcases (h.step ..).mp hread with ⟨heq, rfl⟩ | ⟨c, t, heq, hne, hc, hread⟩
  · exact ⟨[close], heq, .of_head hclose (halts_cons.mpr hclose) fun fuel rest' _ _ =>
      (h.step ..).mpr (Or.inl ⟨afterSpace_cons (isSpace_of_isBlank hclose), rfl⟩)⟩
  · obtain ⟨used, ht, hused⟩ := helement _ _ _ hread
    cases start with
    | true =>
        rw [if_pos rfl, afterSpace_cons (isSpace_of_afterSpace heq)] at ht
        obtain ⟨first, more, rfl⟩ := List.exists_cons_of_ne_nil hused.nonempty
        rw [List.cons_append, List.cons.injEq] at ht
        obtain ⟨rfl, rfl⟩ := ht
        refine ⟨_, heq, .of_head (halts_cons.mp hused.starts) hused.ends
          fun fuel rest' hfuel hrest' => (h.step ..).mpr (Or.inr ⟨c, more ++ rest',
            afterSpace_cons (isSpace_of_afterSpace heq), hne, Or.inl rfl, ?_⟩)⟩
        exact hused.finds fuel rest' (by rw [List.length_cons]; omega) hrest'
    | false =>
        obtain ⟨spaces, rfl, hspaces⟩ := exists_spaces ht
        obtain rfl := hc.resolve_left (by decide)
        refine ⟨',' :: (spaces ++ used), by simp [heq], .of_head (by decide)
          (halts_reverse_append (',' :: spaces) hused.nonempty hused.ends)
          fun fuel rest' hfuel hrest' => (h.step ..).mpr (Or.inr ⟨',', spaces ++ used ++ rest',
            afterSpace_cons (by decide), hne, Or.inr rfl, ?_⟩)⟩
        rw [List.length_append] at hfuel
        rw [if_neg (by decide), List.append_assoc, hskip _ _ _ hspaces]
        exact hused.finds fuel rest' (by omega) hrest'

theorem isListOf_of_step {broken : α} (hstarved : ∀ s x rest, list 0 s ≠ (x, some rest))
    (hnil : ∀ fuel s, afterSpace s = [] → (list (fuel + 1) s).2 = none)
    (hclose : ∀ fuel s t, afterSpace s = close :: t → list (fuel + 1) s = (closed, some t))
    (helement : ∀ fuel s c t, afterSpace s = c :: t → c ≠ close → list (fuel + 1) s =
      if start || c = ',' then element fuel (if start then c :: t else t) else (broken, none)) :
    IsListOf start close closed list element where
  starved := hstarved
  step fuel s x rest := by
    cases hs : afterSpace s with
    | nil =>
        have hread : list (fuel + 1) s ≠ (x, some rest) := fun h => by
          simpa [h] using hnil fuel s hs
        simp [hread]
    | cons c t =>
        by_cases hend : c = close
        · subst hend
          rw [hclose fuel s t hs]
          simp [eq_comm, and_comm]
        · rw [helement fuel s c t hs hend]
          by_cases hc : start = true ∨ c = ','
          · rw [if_pos (by simpa using hc)]
            simp only [List.cons.injEq, hend, false_and, false_or]
            exact ⟨fun h => ⟨c, t, ⟨rfl, rfl⟩, hend, hc, h⟩,
              fun ⟨_, _, ⟨hfirst, hmore⟩, _, _, h⟩ => by rwa [hfirst, hmore]⟩
          · simp [hc, hend]

end Lists

/-- An item and those after it. -/
abbrev readItem : Nat → List Char → Reading Raw.Items :=
  followed (readItems · false) .item .close

theorem isListOf_readItems : IsListOf start ']' .close (readItems · start) readItem :=
  isListOf_of_step (by simp [readItems]) (fun fuel s hs => by simp [readItems, hs])
    (fun fuel s t hs => by simp [readItems, hs])
    (fun fuel s c t hs hc => by
      rw [readItems, hs]
      split <;> rename_i heq <;> cases heq
      · exact absurd rfl hc
      · rfl)

theorem isListOf_readMembers :
    IsListOf start '\x7d' .close (readMembers · start) readMember :=
  isListOf_of_step (by simp [readMembers]) (fun fuel s hs => by simp [readMembers, hs])
    (fun fuel s t hs => by simp [readMembers, hs])
    (fun fuel s c t hs hc => by
      rw [readMembers, hs]
      split <;> rename_i heq <;> cases heq
      · exact absurd rfl hc
      · rfl)

/-- A key as it was read. -/
def keyOf : Option String → Raw.Key
  | some text => .text text
  | none => .unpaired

/-- The value of a member and the members after it. -/
abbrev readNamed (key : Raw.Key) : Nat → List Char → Reading Raw.Members :=
  followed (readMembers · false) (.member key) .close

theorem readMember_eq_some {members : Raw.Members} :
    readMember (fuel + 1) s = (members, some rest) ↔
      ∃ t text t' u, afterSpace s = '"' :: t ∧ readText t = (.string text, some t') ∧
        afterSpace t' = ':' :: u ∧ readNamed (keyOf text) fuel u = (members, some rest) := by
  constructor
  · intro h
    rw [readMember] at h
    split at h
    · simp at h
    · rename_i t heq
      split at h
      · rename_i text t' hread
        dsimp only at h
        split at h
        · simp at h
        · rename_i u hcolon
          exact ⟨t, text, t', u, heq, hread, hcolon, h⟩
        · simp at h
      all_goals simp at h
    · simp at h
  · rintro ⟨t, text, t', u, ht, hread, hcolon, h⟩
    simp only [readMember, ht, hread, hcolon]
    exact h

theorem finds_named {key : Raw.Key} (hvalue : Finds readValue 1 fuel)
    (hmembers : Finds (readMembers · false) 3 fuel) : Finds (readNamed key) 1 fuel :=
  finds_followed (by decide) (fun _ => skipsSpace_readMembers)
    (fun _ _ _ => isListOf_readMembers.halts (by decide)) hvalue hmembers

theorem finds_member (hvalue : Finds readValue 1 fuel)
    (hmembers : Finds (readMembers · false) 3 fuel) : Finds readMember 2 (fuel + 1) := by
  intro s members rest h
  obtain ⟨t, text, t', u, hs, hread, hcolon, hnamed⟩ := readMember_eq_some.mp h
  obtain ⟨body, rfl, hbody⟩ := exists_quoted hread
  obtain ⟨before, rfl, hbefore⟩ := exists_spaces hcolon
  obtain ⟨used, hu, hused⟩ := finds_named hvalue hmembers _ _ _ hnamed
  obtain ⟨spaces, rfl, hspaces⟩ := exists_spaces hu
  refine ⟨'"' :: (body ++ '"' :: (before ++ ':' :: (spaces ++ used))), by simp [hs],
    .of_head (by decide) ?_ fun fuel rest' hfuel hrest' => ?_⟩
  · have hends := halts_reverse_append ('"' :: (body ++ '"' :: (before ++ ':' :: spaces)))
      hused.nonempty hused.ends
    simpa using hends
  · have hquoted := hbody (before ++ ':' :: (spaces ++ (used ++ rest')))
    simp only [List.length_append, List.length_cons] at hfuel
    refine readMember_eq_some.mpr ⟨_, text, _, spaces ++ (used ++ rest'),
      afterSpace_cons (by decide), by simpa using hquoted, ?_, ?_⟩
    · rw [afterSpace_append hbefore, afterSpace_cons (by decide)]
    · have hskip : SkipsSpace (readNamed (keyOf text) fuel) := skipsSpace_followed
      rw [hskip _ _ hspaces]
      exact hused.finds fuel rest' (by omega) hrest'

/-- **Each reader uses the first part of a text for what it finds.**  Before it comes to a value
a list of items takes one step and a list of members two, and every value uses a character. -/
theorem finds_readers (fuel : Nat) : Finds readValue 1 fuel ∧
    (∀ start, Finds (readItems · start) 2 fuel) ∧ (∀ start, Finds (readMembers · start) 3 fuel) ∧
      Finds readMember 2 fuel := by
  induction fuel with
  | zero =>
      exact ⟨fun s x rest h => by simp [readValue] at h,
        fun start s x rest h => absurd h (isListOf_readItems.starved s x rest),
        fun start s x rest h => absurd h (isListOf_readMembers.starved s x rest),
        fun s x rest h => by simp [readMember] at h⟩
  | succ fuel ih =>
      obtain ⟨hvalue, hitems, hmembers, hmember⟩ := ih
      refine ⟨finds_value (hitems true) (hmembers true), fun start => ?_, fun start => ?_,
        finds_member hvalue (hmembers false)⟩
      · exact isListOf_readItems.finds (by decide) (fun _ => skipsSpace_followed)
          (finds_followed (by decide) (fun _ => skipsSpace_readItems)
            (fun _ _ _ => isListOf_readItems.halts (by decide)) hvalue (hitems false))
      · exact isListOf_readMembers.finds (by decide) (fun _ => skipsSpace_readMember) hmember

end Values

/-! ### Texts that break off -/

section Breaks

variable {fuel : Nat} {start : Bool} {fault skipping naming : Fault} {items : Raw.Items}
  {members : Raw.Members} {key : Raw.Key} {head : Raw}

/-- A tree that stands for no value, wherever it comes from. -/
def Breaks (raw : Raw) : Prop :=
  ∀ origin j, raw.value origin ≠ .ok j

/-- Items of which some have no value. -/
def BreaksItems (items : Raw.Items) : Prop :=
  ∀ origin js, items.values origin ≠ .ok js

/-- Members of which some have no value. -/
def BreaksMembers (members : Raw.Members) : Prop :=
  ∀ origin seen js, members.values origin seen ≠ .ok js

theorem breaks_broken : Breaks (.broken fault skipping naming) := fun _ _ h => by
  simp [Raw.value] at h

theorem BreaksItems.array (h : BreaksItems items) : Breaks (.array items) := by
  intro origin j hj
  rw [Raw.value] at hj
  obtain ⟨inner, -, hj⟩ := bind_eq_ok.mp hj
  obtain ⟨js, hjs, -⟩ := bind_eq_ok.mp hj
  exact h inner js hjs

theorem BreaksMembers.object (h : BreaksMembers members) : Breaks (.object members) := by
  intro origin j hj
  rw [Raw.value] at hj
  obtain ⟨inner, -, hj⟩ := bind_eq_ok.mp hj
  obtain ⟨js, hjs, -⟩ := bind_eq_ok.mp hj
  exact h inner [] js hjs

theorem breaksItems_broken : BreaksItems (.broken fault) := fun _ _ h => by
  simp [Raw.Items.values] at h

theorem breaksItems_item (h : Breaks head ∨ BreaksItems items) :
    BreaksItems (.item head items) := by
  intro origin js hjs
  rw [Raw.Items.values] at hjs
  obtain ⟨j, hj, hjs⟩ := bind_eq_ok.mp hjs
  obtain ⟨more, hmore, -⟩ := bind_eq_ok.mp hjs
  exact h.elim (fun h => h origin j hj) fun h => h origin more hmore

theorem breaksMembers_broken {closing : Fault} : BreaksMembers (.broken fault closing) :=
  fun _ _ _ h => by simp [Raw.Members.values] at h

theorem breaksMembers_stray : BreaksMembers (.member .stray head members) :=
  fun _ _ _ h => by simp [Raw.Members.values, Raw.Key.read, bind, Except.bind] at h

theorem breaksMembers_member (h : Breaks head ∨ BreaksMembers members) :
    BreaksMembers (.member key head members) := by
  intro origin seen js hjs
  rw [Raw.Members.values] at hjs
  obtain ⟨k, -, hjs⟩ := bind_eq_ok.mp hjs
  obtain ⟨j, hj, hjs⟩ := bind_eq_ok.mp hjs
  exact h.elim (fun h => h origin j hj) fun h => h origin _ js hjs

theorem breaks_of_readText (h : readText s = (raw, none)) : Breaks raw := by
  unfold readText at h
  cases hunits : textUnits s with
  | mk units ending =>
      rw [hunits] at h
      cases ending with
      | closed rest => cases h
      | broken fault =>
          dsimp only at h
          split at h <;> cases h <;> exact breaks_broken

theorem breaks_of_readWord {tree : Raw} {word : List Char}
    (h : readWord tree naming word s = (raw, none)) : Breaks raw := by
  fun_induction readWord tree naming word s with
  | case1 => cases h
  | case2 => cases h; exact breaks_broken
  | case3 _ _ _ ih => exact ih h
  | case4 => cases h; exact breaks_broken

theorem breaks_of_lacksDigits (h : lacksDigits s = (raw, none)) : Breaks raw := by
  unfold lacksDigits at h
  split at h <;> cases h <;> exact breaks_broken

theorem breaks_of_readExponent {negative : Bool} {whole : List Nat}
    {fraction : Option (List Nat)} (h : readExponent negative whole fraction s = (raw, none)) :
    Breaks raw := by
  rcases halts_or_cons isMark s with hplain | ⟨c, after, rfl, hc⟩
  · rw [readExponent_of_halts hplain] at h
    cases h
  · rw [readExponent_of_mark hc] at h
    split at h
    · exact breaks_of_lacksDigits h
    · cases h

theorem breaks_of_readNumber (h : readNumber s = (raw, none)) : Breaks raw := by
  rw [readNumber_eq] at h
  split at h
  · exact breaks_of_lacksDigits h
  · split at h
    · cases h
      exact breaks_broken
    · unfold readFraction at h
      split at h
      · split at h
        · exact breaks_of_lacksDigits h
        · exact breaks_of_readExponent h
      · exact breaks_of_readExponent h

/-- What a value and the rest are joined to breaks with either of them. -/
theorem breaks_of_followed {α : Type} {next : Nat → List Char → Reading α}
    {join : Raw → α → α} {closed x : α} {P : α → Prop}
    (hjoin : ∀ value x, Breaks value ∨ P x → P (join value x))
    (hvalue : ∀ s raw, readValue fuel s = (raw, none) → Breaks raw)
    (hnext : ∀ s x, next fuel s = (x, none) → P x)
    (h : followed next join closed fuel s = (x, none)) : P x := by
  unfold followed at h
  cases hread : readValue fuel s with
  | mk value after =>
      rw [hread] at h
      cases after with
      | none =>
          cases h
          exact hjoin _ _ (Or.inl (hvalue _ _ hread))
      | some after =>
          rw [Prod.mk.injEq] at h
          obtain ⟨rfl, hnone⟩ := h
          exact hjoin _ _ (Or.inr (hnext _ _ (Prod.ext rfl hnone)))

theorem breaks_of_readItem (hvalue : ∀ s raw, readValue fuel s = (raw, none) → Breaks raw)
    (hitems : ∀ s items, readItems fuel false s = (items, none) → BreaksItems items)
    (h : readItem fuel s = (items, none)) : BreaksItems items :=
  breaks_of_followed (fun _ _ => breaksItems_item) hvalue hitems h

theorem breaks_of_readNamed (hvalue : ∀ s raw, readValue fuel s = (raw, none) → Breaks raw)
    (hmembers : ∀ s members, readMembers fuel false s = (members, none) → BreaksMembers members)
    (h : readNamed key fuel s = (members, none)) : BreaksMembers members :=
  breaks_of_followed (fun _ _ => breaksMembers_member) hvalue hmembers h

/-- Where a reader leaves no rest, what it has read has no value. -/
theorem breaks_of_none (fuel : Nat) :
    (∀ s raw, readValue fuel s = (raw, none) → Breaks raw) ∧
    (∀ start s items, readItems fuel start s = (items, none) → BreaksItems items) ∧
    (∀ start s members, readMembers fuel start s = (members, none) → BreaksMembers members) ∧
      ∀ s members, readMember fuel s = (members, none) → BreaksMembers members := by
  induction fuel with
  | zero =>
      refine ⟨fun s raw h => ?_, fun start s items h => ?_, fun start s members h => ?_,
        fun s members h => ?_⟩
      · cases h; exact breaks_broken
      · cases h; exact breaksItems_broken
      · cases h; exact breaksMembers_broken
      · cases h; exact breaksMembers_broken
  | succ fuel ih =>
      obtain ⟨hvalue, hitems, hmembers, hmember⟩ := ih
      refine ⟨fun s raw h => ?_, fun start s items h => ?_, fun start s members h => ?_,
        fun s members h => ?_⟩
      · rw [readValue] at h
        split at h
        · cases h; exact breaks_broken
        · exact breaks_of_readText h
        · rw [Prod.mk.injEq] at h
          obtain ⟨rfl, hnone⟩ := h
          exact (hitems _ _ _ (Prod.ext rfl hnone)).array
        · rw [Prod.mk.injEq] at h
          obtain ⟨rfl, hnone⟩ := h
          exact (hmembers _ _ _ (Prod.ext rfl hnone)).object
        · exact breaks_of_readWord h
        · exact breaks_of_readWord h
        · exact breaks_of_readWord h
        · split at h
          · exact breaks_of_readNumber h
          · cases h; exact breaks_broken
      · rw [readItems] at h
        split at h
        · cases h; exact breaksItems_broken
        · cases h
        · split at h
          · exact breaks_of_readItem hvalue (hitems false) h
          · cases h; exact breaksItems_broken
      · rw [readMembers] at h
        split at h
        · cases h; exact breaksMembers_broken
        · cases h
        · split at h
          · exact hmember _ _ h
          · cases h; exact breaksMembers_broken
      · rw [readMember] at h
        split at h
        · cases h; exact breaksMembers_broken
        · split at h
          · rename_i text after hread
            dsimp only at h
            split at h
            · cases h; exact breaksMembers_member (Or.inl breaks_broken)
            · rename_i u hcolon
              have hnamed : readNamed (keyOf text) fuel u = (members, none) := h
              exact breaks_of_readNamed hvalue (hmembers false) hnamed
            · cases h; exact breaksMembers_member (Or.inl breaks_broken)
          · cases h; exact breaksMembers_member (Or.inl breaks_broken)
          · cases h; exact breaksMembers_broken
          · cases h; exact breaksMembers_broken
        · cases h; exact breaksMembers_stray

end Breaks

/-! ### White space around a value -/

/-- White space around characters that are none goes, and nothing else. -/
theorem trimBoth_eq {back : List Char} (hfront : ∀ c ∈ front, Text.isBlank c = true)
    (hback : ∀ c ∈ back, Text.isBlank c = true) (hne : used ≠ [])
    (hstarts : Halts Text.isBlank used) (hends : Halts Text.isBlank used.reverse) :
    Text.trimBoth Text.isBlank (front ++ (used ++ back)) = used := by
  rw [Text.trimBoth, dropWhile_append_of_halts hfront ((halts_append hne).mpr hstarts),
    List.reverse_append, dropWhile_append_of_halts
      (fun c hc => hback c (List.mem_reverse.mp hc)) hends, List.reverse_reverse]

/-- A text with a value is read to its end, up to white space. -/
theorem exists_of_parse {text : String} {j : Json} (h : parse text = .ok j) :
    ∃ front used back raw, text.toList = front ++ (used ++ back) ∧
      (∀ c ∈ front, isSpace c = true) ∧ (∀ c ∈ back, isSpace c = true) ∧
      Uses readValue 1 used raw ∧ raw.value wholeText = .ok j := by
  rw [parse] at h
  obtain ⟨value, hvalue, h⟩ := bind_eq_ok.mp h
  obtain ⟨_, hfinish, h⟩ := bind_eq_ok.mp h
  cases h
  cases hread : readValue (3 * text.toList.length + 3) text.toList with
  | mk raw after =>
      simp only [readDocument, hread] at hvalue hfinish
      cases after with
      | none => exact absurd hvalue ((breaks_of_none _).1 _ _ hread _ _)
      | some rest =>
          obtain ⟨used, hused, huses⟩ := (finds_readers _).1 _ _ _ hread
          obtain ⟨front, htext, hfront⟩ := exists_spaces hused
          have hback : afterSpace rest = [] := by
            simpa [Document.finish] using hfinish
          refine ⟨front, used, rest, raw, htext, hfront, fun c hc => ?_, huses, hvalue⟩
          exact List.dropWhile_eq_nil_iff.mp hback c hc

/-- **White space around a text that stands for a value is not part of the value.** -/
theorem parse_trim {text : String} {j : Json} (h : parse text = .ok j) :
    parse (Text.trim text) = .ok j := by
  obtain ⟨front, used, back, raw, htext, hfront, hback, huses, hvalue⟩ := exists_of_parse h
  have htrim : Text.trim text = String.ofList used := by
    rw [Text.trim, htext, trimBoth_eq (fun c hc => isBlank_of_isSpace (hfront c hc))
      (fun c hc => isBlank_of_isSpace (hback c hc)) huses.nonempty huses.starts huses.ends]
  have hread := huses.finds (3 * used.length + 3) [] (by omega) (fun _ hc => by simp at hc)
  rw [List.append_nil] at hread
  rw [htrim, parse, readDocument, String.toList_ofList, hread]
  simp only [hvalue]
  rfl

end Statechart.Json
