/-
Finite sets kept as strictly ascending lists.

The order of the elements is visible: a configuration is walked in document
order and a set of ids is reported in the order of its texts.  Because the list
is strictly ascending there is one list for each set, so two sets with the same
members are equal (`SortedSet.ext`).
-/

namespace Statechart

/-- A finite set, listed in strictly ascending order. -/
structure SortedSet (α : Type) [Ord α] where
  /-- The members, least first. -/
  toList : List α
  /-- Each member comes strictly before every later one. -/
  ascending : toList.Pairwise (fun a b => compare a b = .lt)

namespace SortedSet

/-- Puts `a` at its place in an ascending list, unless it is there already. -/
def place {α : Type} [Ord α] (a : α) : List α → List α
  | [] => [a]
  | b :: rest =>
    match compare a b with
    | .lt => a :: b :: rest
    | .eq => b :: rest
    | .gt => b :: place a rest

section

variable {α : Type} [Ord α]

/-- The set without members. -/
def empty : SortedSet α := ⟨[], List.Pairwise.nil⟩

instance : EmptyCollection (SortedSet α) := ⟨empty⟩

instance : Inhabited (SortedSet α) := ⟨empty⟩

instance : Membership α (SortedSet α) := ⟨fun s a => a ∈ s.toList⟩

instance [DecidableEq α] (a : α) (s : SortedSet α) : Decidable (a ∈ s) :=
  inferInstanceAs (Decidable (a ∈ s.toList))

instance [DecidableEq α] : DecidableEq (SortedSet α) := fun s t =>
  if h : s.toList = t.toList then
    .isTrue (by cases s; cases t; cases h; rfl)
  else
    .isFalse (fun e => h (e ▸ rfl))

/-- The members for which `keep` holds. -/
def filter (s : SortedSet α) (keep : α → Bool) : SortedSet α :=
  ⟨s.toList.filter keep, s.ascending.sublist List.filter_sublist⟩

/-- Takes a member out. -/
def erase [DecidableEq α] (s : SortedSet α) (a : α) : SortedSet α :=
  s.filter (fun b => decide (b ≠ a))

/-- Whether the two sets have no member in common. -/
def disjoint [DecidableEq α] (s t : SortedSet α) : Bool :=
  s.toList.all (fun a => decide (a ∉ t))

/-- Whether there is no member. -/
def isEmpty (s : SortedSet α) : Bool :=
  s.toList.isEmpty

/-- The number of members. -/
def size (s : SortedSet α) : Nat :=
  s.toList.length

theorem mem_toList {a : α} {s : SortedSet α} : a ∈ s.toList ↔ a ∈ s := Iff.rfl

@[simp] theorem not_mem_empty {a : α} : a ∉ (empty : SortedSet α) :=
  List.not_mem_nil

@[simp] theorem mem_filter {x : α} {s : SortedSet α} {keep : α → Bool} :
    x ∈ s.filter keep ↔ x ∈ s ∧ keep x = true :=
  List.mem_filter

@[simp] theorem mem_erase [DecidableEq α] {a x : α} {s : SortedSet α} :
    x ∈ s.erase a ↔ x ∈ s ∧ x ≠ a := by
  simp [erase]

theorem disjoint_iff [DecidableEq α] {s t : SortedSet α} :
    s.disjoint t = true ↔ ∀ a ∈ s, a ∉ t := by
  simp [disjoint, List.all_eq_true, mem_toList]

theorem mem_place [Std.LawfulEqOrd α] {a x : α} {l : List α} :
    x ∈ place a l ↔ x = a ∨ x ∈ l := by
  induction l with
  | nil => simp [place]
  | cons b rest ih =>
    unfold place
    split
    · simp
    · next h =>
      have hab : a = b := Std.LawfulEqCmp.eq_of_compare h
      simp [hab]
    · simp only [List.mem_cons, ih]
      constructor
      · rintro (h | h | h)
        · exact Or.inr (Or.inl h)
        · exact Or.inl h
        · exact Or.inr (Or.inr h)
      · rintro (h | h | h)
        · exact Or.inr (Or.inl h)
        · exact Or.inl h
        · exact Or.inr (Or.inr h)

end

section

variable {α : Type} [Ord α] [Std.TransOrd α] [Std.LawfulEqOrd α]

theorem ascending_place {a : α} {l : List α}
    (h : l.Pairwise (fun a b => compare a b = .lt)) :
    (place a l).Pairwise (fun a b => compare a b = .lt) := by
  induction l with
  | nil => simp [place]
  | cons b rest ih =>
    obtain ⟨hb, hrest⟩ := List.pairwise_cons.1 h
    unfold place
    split
    · next hab =>
      refine List.pairwise_cons.2 ⟨?_, h⟩
      intro c hc
      rcases List.mem_cons.1 hc with rfl | hc
      · exact hab
      · exact Std.TransCmp.lt_trans hab (hb c hc)
    · exact h
    · next hab =>
      refine List.pairwise_cons.2 ⟨?_, ih hrest⟩
      intro c hc
      rcases mem_place.1 hc with rfl | hc
      · exact Std.OrientedCmp.gt_iff_lt.1 hab
      · exact hb c hc

/-- Adds a member. -/
def insert (s : SortedSet α) (a : α) : SortedSet α :=
  ⟨place a s.toList, ascending_place s.ascending⟩

/-- Adds every element of a list. -/
def insertMany (s : SortedSet α) (l : List α) : SortedSet α :=
  l.foldl insert s

/-- The set of the elements of a list. -/
def ofList (l : List α) : SortedSet α :=
  insertMany empty l

/-- The members of either set. -/
def union (s t : SortedSet α) : SortedSet α :=
  s.insertMany t.toList

@[simp] theorem mem_insert {a x : α} {s : SortedSet α} :
    x ∈ s.insert a ↔ x = a ∨ x ∈ s :=
  mem_place

@[simp] theorem mem_insertMany {x : α} {s : SortedSet α} {l : List α} :
    x ∈ s.insertMany l ↔ x ∈ s ∨ x ∈ l := by
  induction l generalizing s with
  | nil => simp [insertMany]
  | cons a rest ih =>
    have step : s.insertMany (a :: rest) = (s.insert a).insertMany rest := rfl
    rw [step, ih, mem_insert, List.mem_cons]
    constructor
    · rintro ((h | h) | h)
      · exact Or.inr (Or.inl h)
      · exact Or.inl h
      · exact Or.inr (Or.inr h)
    · rintro (h | h | h)
      · exact Or.inl (Or.inr h)
      · exact Or.inl (Or.inl h)
      · exact Or.inr h

@[simp] theorem mem_ofList {x : α} {l : List α} : x ∈ ofList l ↔ x ∈ l := by
  simp [ofList]

@[simp] theorem mem_union {x : α} {s t : SortedSet α} : x ∈ s.union t ↔ x ∈ s ∨ x ∈ t :=
  mem_insertMany

omit [Std.TransOrd α] in
/-- Nothing comes strictly before itself. -/
theorem not_lt_self (a : α) : compare a a ≠ .lt := by
  have h : compare a a = .eq := Std.ReflCmp.compare_self
  rw [h]
  exact Ordering.noConfusion

omit [Std.TransOrd α] in
/-- No member is listed twice. -/
theorem nodup_toList (s : SortedSet α) : s.toList.Nodup :=
  s.ascending.imp fun {a b} h heq => by
    rw [heq] at h
    exact not_lt_self b h

/-- Two strictly ascending lists with the same elements are equal. -/
theorem eq_of_ascending {l m : List α}
    (hl : l.Pairwise (fun a b => compare a b = .lt))
    (hm : m.Pairwise (fun a b => compare a b = .lt))
    (h : ∀ a, a ∈ l ↔ a ∈ m) : l = m := by
  induction l generalizing m with
  | nil =>
    cases m with
    | nil => rfl
    | cons b m => exact absurd ((h b).2 (List.mem_cons_self ..)) List.not_mem_nil
  | cons a l ih =>
    cases m with
    | nil => exact absurd ((h a).1 (List.mem_cons_self ..)) List.not_mem_nil
    | cons b m =>
      obtain ⟨ha, hl'⟩ := List.pairwise_cons.1 hl
      obtain ⟨hb, hm'⟩ := List.pairwise_cons.1 hm
      have hab : a = b := by
        rcases List.mem_cons.1 ((h a).1 (List.mem_cons_self ..)) with hab | ham
        · exact hab
        rcases List.mem_cons.1 ((h b).2 (List.mem_cons_self ..)) with hba | hbl
        · exact hba.symm
        exact absurd (Std.TransCmp.lt_trans (ha b hbl) (hb a ham)) (not_lt_self a)
      subst hab
      congr 1
      refine ih hl' hm' fun c => ?_
      constructor
      · intro hc
        rcases List.mem_cons.1 ((h c).1 (List.mem_cons_of_mem _ hc)) with hca | hcm
        · exact absurd (hca ▸ ha c hc) (not_lt_self c)
        · exact hcm
      · intro hc
        rcases List.mem_cons.1 ((h c).2 (List.mem_cons_of_mem _ hc)) with hca | hcl
        · exact absurd (hca ▸ hb c hc) (not_lt_self c)
        · exact hcl

/-- A set is determined by its members. -/
theorem ext {s t : SortedSet α} (h : ∀ a, a ∈ s ↔ a ∈ t) : s = t := by
  cases s with
  | mk l hl =>
    cases t with
    | mk m hm =>
      have hlm : l = m := eq_of_ascending hl hm h
      subst hlm
      rfl

end

end SortedSet

end Statechart
