/-
Texts cut at a separator or after a start.
-/

namespace Statechart.Text

/-- The pieces of a text between separators; a text without one is a single piece. -/
def pieces (separator : Char) : List Char → List (List Char)
  | [] => [[]]
  | c :: rest =>
    if c = separator then [] :: pieces separator rest
    else
      match pieces separator rest with
      | [] => [[c]]
      | piece :: others => (c :: piece) :: others

/-- The names of a dotted path. -/
def path (s : String) : List String :=
  (pieces '.' s.toList).map String.ofList

/-- The parts of a text before and after the first character that matches. -/
def cut? (p : Char → Bool) : List Char → Option (List Char × List Char)
  | [] => none
  | c :: rest =>
    if p c then some ([], rest)
    else (cut? p rest).map fun parts => (c :: parts.1, parts.2)

/-- The lines of a text; a break at the end begins none. -/
def lines (s : String) : List String :=
  let all := pieces '\n' s.toList
  let all := if all.getLast? = some [] then all.dropLast else all
  all.map String.ofList

/-- The rest of a text after `start`, if it starts so. -/
def afterStart? (start : List Char) (s : List Char) : Option (List Char) :=
  match start, s with
  | [], rest => some rest
  | _ :: _, [] => none
  | a :: start, c :: rest => if a = c then afterStart? start rest else none

/-- What follows a start is found exactly when the text is the start and then that. -/
theorem afterStart?_eq_some_iff {start s rest : List Char} :
    afterStart? start s = some rest ↔ s = start ++ rest := by
  induction start generalizing s with
  | nil => simp [afterStart?, eq_comm]
  | cons a start ih =>
    cases s with
    | nil => simp [afterStart?]
    | cons c s =>
      unfold afterStart?
      by_cases h : a = c
      · simp [h, ih]
      · have h' : ¬ c = a := fun e => h e.symm
        simp [h, h']

/-- A text has at least one piece. -/
theorem pieces_ne_nil {separator : Char} {s : List Char} : pieces separator s ≠ [] := by
  cases s with
  | nil => simp [pieces]
  | cons c rest =>
    unfold pieces
    split
    · simp
    · split <;> simp

/-- The pieces joined by the separator are the text. -/
theorem intercalate_pieces {separator : Char} {s : List Char} :
    [separator].intercalate (pieces separator s) = s := by
  induction s with
  | nil => rfl
  | cons c rest ih =>
    unfold pieces
    cases h : pieces separator rest with
    | nil => exact absurd h pieces_ne_nil
    | cons piece others =>
      rw [h] at ih
      split
      · next hc =>
        rw [List.intercalate_cons_cons, ih, hc]
        rfl
      · cases others with
        | nil => simpa using ih
        | cons second others =>
          rw [List.intercalate_cons_cons] at ih ⊢
          rw [← ih]
          rfl

section Pieces

variable {separator c : Char} {s : List Char}

theorem pieces_cons_separator : pieces separator (separator :: s) = [] :: pieces separator s := by
  rw [pieces, if_pos rfl]

theorem pieces_cons_of_ne (h : c ≠ separator) : ∃ piece others,
    pieces separator s = piece :: others ∧ pieces separator (c :: s) = (c :: piece) :: others := by
  cases hs : pieces separator s with
  | nil => exact absurd hs pieces_ne_nil
  | cons piece others => exact ⟨piece, others, rfl, by rw [pieces, if_neg h, hs]⟩

/-- Every character of a piece is one of the text, and not the separator. -/
theorem mem_of_mem_pieces {piece : List Char} (h : piece ∈ pieces separator s) (hc : c ∈ piece) :
    c ∈ s ∧ c ≠ separator := by
  induction s generalizing piece with
  | nil =>
    rw [pieces, List.mem_singleton] at h
    exact absurd hc (h ▸ List.not_mem_nil)
  | cons d rest ih =>
    by_cases hd : d = separator
    · rw [hd, pieces_cons_separator, List.mem_cons] at h
      rcases h with rfl | h
      · exact absurd hc List.not_mem_nil
      · exact (ih h hc).imp_left (List.mem_cons_of_mem _)
    · obtain ⟨first, others, hrest, hpieces⟩ := pieces_cons_of_ne (s := rest) hd
      rw [hrest] at ih
      rw [hpieces, List.mem_cons] at h
      rcases h with rfl | h
      · rcases List.mem_cons.mp hc with rfl | hc
        · exact ⟨List.mem_cons_self .., hd⟩
        · exact (ih (List.mem_cons_self ..) hc).imp_left (List.mem_cons_of_mem _)
      · exact (ih (List.mem_cons_of_mem _ h) hc).imp_left (List.mem_cons_of_mem _)

/-- No piece holds the separator. -/
theorem not_mem_of_mem_pieces {piece : List Char} (h : piece ∈ pieces separator s) :
    separator ∉ piece :=
  fun hs => (mem_of_mem_pieces h hs).2 rfl

/-- An empty piece is the first, where a text is empty or begins with the separator, or stands
behind a separator. -/
theorem nil_mem_pieces_iff_tail : [] ∈ pieces separator s ↔
    (s = [] ∨ s.head? = some separator) ∨ [] ∈ (pieces separator s).tail := by
  cases s with
  | nil => simp [pieces]
  | cons c rest =>
    by_cases hc : c = separator
    · simp [hc, pieces_cons_separator]
    · obtain ⟨piece, others, -, hpieces⟩ := pieces_cons_of_ne (s := rest) hc
      simp [hpieces, hc]

theorem nil_mem_tail_pieces_iff : [] ∈ (pieces separator s).tail ↔
    s.getLast? = some separator ∨ [separator, separator] <:+: s := by
  induction s with
  | nil => simp [pieces]
  | cons c rest ih =>
    rw [List.infix_cons_iff, List.cons_prefix_cons]
    by_cases hc : c = separator
    · rw [hc, pieces_cons_separator, List.tail_cons, nil_mem_pieces_iff_tail, ih]
      cases rest with
      | nil => simp
      | cons d rest =>
        rw [List.getLast?_cons_cons, List.cons_prefix_cons, List.head?_cons]
        simp only [List.cons_ne_nil, List.nil_prefix, Option.some_inj, and_true, true_and, false_or,
          eq_comm (a := d)]
        exact or_left_comm
    · obtain ⟨piece, others, hrest, hpieces⟩ := pieces_cons_of_ne (s := rest) hc
      rw [hrest] at ih
      rw [hpieces, List.tail_cons]
      rw [List.tail_cons] at ih
      rw [ih]
      cases rest with
      | nil => simp [hc]
      | cons d rest => simp [Ne.symm hc]

/-- **Where a piece is empty.** -/
theorem nil_mem_pieces_iff : [] ∈ pieces separator s ↔ s = [] ∨ s.head? = some separator ∨
    s.getLast? = some separator ∨ [separator, separator] <:+: s := by
  rw [nil_mem_pieces_iff_tail, nil_mem_tail_pieces_iff, or_assoc]

end Pieces

/-- A dotted path has at least one name. -/
theorem path_ne_nil {s : String} : path s ≠ [] := by
  simp [path, pieces_ne_nil]

/-- No name of a dotted path holds a dot. -/
theorem not_mem_of_mem_path {s name : String} (h : name ∈ path s) : '.' ∉ name.toList := by
  obtain ⟨piece, hpiece, rfl⟩ := List.mem_map.1 h
  rw [String.toList_ofList]
  exact not_mem_of_mem_pieces hpiece

/-- The names of a dotted path joined by dots are the path. -/
theorem intercalate_path {s : String} : ".".intercalate (path s) = s := by
  have hid : String.toList ∘ String.ofList = id := funext fun _ => String.toList_ofList
  rw [← String.toList_inj, String.toList_intercalate, path, List.map_map, hid, List.map_id]
  exact intercalate_pieces

end Statechart.Text
