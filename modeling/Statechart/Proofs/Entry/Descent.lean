/-
The default descent of a node.

`Entry.defaults` walks down from a node and looks at what has been entered already
before it enters a region.  Where nothing below the node has been entered, the look
always says no, and the walk enters the nodes that `DefaultStep` leads to: the initial
child of a compound node and every region of a parallel one.  `mem_withDefaults` is that
statement, and it turns the walk, which changes a set as it goes, into a relation
between nodes that does not.

`mem_fillRegions` is the common step: regions of one node, tried one after the other.
Filling one of them never covers another, because the subtrees of siblings have nothing
in common, so what a region finds is what it would have found at the start.
-/
import Mathlib.Logic.Relation
import Statechart.Proofs.Tree.Loaded
import Statechart.Step.Entry

namespace Statechart.Entry

open Statechart.Tree

variable {t : Tree} {i j n r : Nat} {E config : NodeSet}

/-- One step of the default descent. -/
inductive DefaultStep (t : Tree) (a b : Nat) : Prop
  | initial (kind : t.kind a = .compound) (child : t.initialChild a = some b)
  | region (kind : t.kind a = .parallel) (child : b ∈ t.regions a)

/-- What a node enters with its default descent, itself included. -/
def Descent (t : Tree) : Nat → Nat → Prop := Relation.ReflTransGen (DefaultStep t)

theorem DefaultStep.mem_regions (w : t.WellFormed) {a b : Nat} (h : DefaultStep t a b) :
    b ∈ t.regions a := by
  cases h with
  | initial kind child =>
      obtain ⟨c, hc, hinitial⟩ := w.initial kind
      rw [child] at hinitial
      cases hinitial
      exact hc
  | region kind child => exact child

theorem DefaultStep.parent (w : t.WellFormed) {a b : Nat} (h : DefaultStep t a b) :
    t.parent b = some a :=
  (w.mem_regions.mp (h.mem_regions w)).1

/-- The descent stays in the subtree. -/
theorem Descent.within (w : t.WellFormed) {a b : Nat} (h : Descent t a b) : t.Within b a := by
  induction h with
  | refl => exact within_self
  | tail _ hstep ih => exact (below_of_parent (hstep.parent w)).within.trans ih

theorem descent_iff {a b : Nat} :
    Descent t a b ↔ b = a ∨ ∃ m, DefaultStep t a m ∧ Descent t m b := by
  rw [Descent, Relation.ReflTransGen.cases_head_iff]
  exact ⟨fun h => h.imp_left Eq.symm, fun h => h.imp_left Eq.symm⟩

/-! ### What counts as entered -/

theorem covered_iff : covered t r E = true ↔ ∃ j ∈ E, t.Within j r := by
  unfold covered
  rw [List.any_eq_true]
  constructor
  · rintro ⟨j, hj, h⟩
    rw [Bool.or_eq_true, beq_iff_eq, isDescendant_iff] at h
    exact ⟨j, hj, h⟩
  · rintro ⟨j, hj, h⟩
    refine ⟨j, hj, ?_⟩
    rw [Bool.or_eq_true, beq_iff_eq, isDescendant_iff]
    exact h

/-- Nothing at or below a node is in a set. -/
def Bare (t : Tree) (E : NodeSet) (r : Nat) : Prop := ∀ j ∈ E, ¬ t.Within j r

theorem covered_eq_false_iff : covered t r E = false ↔ Bare t E r := by
  rw [← Bool.not_eq_true, covered_iff]
  constructor
  · intro h j hj hw
    exact h ⟨j, hj, hw⟩
  · rintro h ⟨j, hj, hw⟩
    exact h j hj hw

theorem fillRegion_of_covered (h : ¬ Bare t E r) : fillRegion t config E r = E := by
  rw [← covered_eq_false_iff, Bool.not_eq_false] at h
  rw [fillRegion, h, Bool.true_or, if_pos rfl]

theorem fillRegion_of_bare (h : Bare t E r) (hconfig : Bare t config r) :
    fillRegion t config E r = withDefaults t E r := by
  rw [fillRegion, covered_eq_false_iff.mpr h, covered_eq_false_iff.mpr hconfig, Bool.or_false,
    if_neg Bool.false_ne_true]

/-! ### Regions of one node -/

/-- Regions are filled one after the other, those in which something is entered left out. -/
theorem mem_fillRegions (w : t.WellFormed) {p : Nat} {l : List Nat}
    (hfill : ∀ r ∈ l, ∀ E : NodeSet, Bare t E r →
      ∀ i, i ∈ withDefaults t E r ↔ i ∈ E ∨ Descent t r i)
    (hparent : ∀ r ∈ l, t.parent r = some p) (hnodup : l.Nodup)
    (hconfig : ∀ r ∈ l, Bare t config r) :
    ∀ E : NodeSet, i ∈ l.foldl (fillRegion t config) E ↔
      i ∈ E ∨ ∃ r ∈ l, Bare t E r ∧ Descent t r i := by
  induction l with
  | nil => intro E; simp
  | cons r rest ih =>
      intro E
      obtain ⟨hr, hrest⟩ := List.nodup_cons.mp hnodup
      have hstep := ih (fun b hb => hfill b (List.mem_cons_of_mem _ hb))
        (fun b hb => hparent b (List.mem_cons_of_mem _ hb)) hrest
        (fun b hb => hconfig b (List.mem_cons_of_mem _ hb))
      rw [List.foldl_cons, hstep]
      by_cases hbare : Bare t E r
      · rw [fillRegion_of_bare hbare (hconfig r (List.mem_cons_self ..))]
        have hmem := hfill r (List.mem_cons_self ..) E hbare
        -- filling `r` covers no other region
        have hsame : ∀ b ∈ rest, (Bare t (withDefaults t E r) b ↔ Bare t E b) := by
          intro b hb
          constructor
          · intro h j hj
            exact h j ((hmem j).mpr (Or.inl hj))
          · intro h j hj hw
            rcases (hmem j).mp hj with hj | hj
            · exact h j hj hw
            · have := eq_of_within_children (hparent r (List.mem_cons_self ..))
                (hparent b (List.mem_cons_of_mem _ hb)) (hj.within w) hw
              exact hr (this ▸ hb)
        rw [hmem]
        constructor
        · rintro ((h | h) | ⟨b, hb, hbare', h⟩)
          · exact Or.inl h
          · exact Or.inr ⟨r, List.mem_cons_self .., hbare, h⟩
          · exact Or.inr ⟨b, List.mem_cons_of_mem _ hb, (hsame b hb).mp hbare', h⟩
        · rintro (h | ⟨b, hb, hbare', h⟩)
          · exact Or.inl (Or.inl h)
          · rcases List.mem_cons.mp hb with rfl | hb
            · exact Or.inl (Or.inr h)
            · exact Or.inr ⟨b, hb, (hsame b hb).mpr hbare', h⟩
      · rw [fillRegion_of_covered hbare]
        constructor
        · rintro (h | ⟨b, hb, h⟩)
          · exact Or.inl h
          · exact Or.inr ⟨b, List.mem_cons_of_mem _ hb, h⟩
        · rintro (h | ⟨b, hb, hbare', h⟩)
          · exact Or.inl h
          · rcases List.mem_cons.mp hb with rfl | hb
            · exact absurd hbare' hbare
            · exact Or.inr ⟨b, hb, hbare', h⟩

/-! ### The descent -/

theorem bare_empty : Bare t SortedSet.empty r := fun _ h => absurd h SortedSet.not_mem_empty

/-- A parallel node enters its regions as if nothing were active. -/
theorem defaults_parallel (h : t.kind n = .parallel) :
    defaults t n E = (t.regions n).foldl (fillRegion t SortedSet.empty) E := by
  rw [defaults]
  simp only [h]
  rw [List.foldl_attach (f := fun E r => if covered t r E then E else defaults t r (E.insert r))]
  congr 1
  funext E r
  rw [fillRegion, covered_eq_false_iff.mpr bare_empty, Bool.or_false]
  rfl

theorem defaults_compound {c : Nat} (h : t.kind n = .compound) (hc : t.initialChild n = some c) :
    defaults t n E = withDefaults t E c := by
  rw [defaults]
  simp only [h]
  split
  · rename_i b hb
    rw [hc] at hb
    cases hb
    rfl
  · rename_i hb
    rw [hc] at hb
    cases hb

theorem defaults_end (h : t.kind n ≠ .compound) (h' : t.kind n ≠ .parallel) :
    defaults t n E = E := by
  rw [defaults]
  split
  · rename_i hk; exact absurd hk h
  · rename_i hk; exact absurd hk h'
  · rfl

theorem bare_of_fresh (h : ∀ j ∈ E, ¬ t.Below j n) (hr : t.parent r = some n) : Bare t E r :=
  fun j hj hw => h j hj (hw.below (below_of_parent hr))

/-- A node is entered with its descent, if that is what its defaults add. -/
theorem mem_withDefaults_of
    (hdefaults : ∀ E : NodeSet, (∀ j ∈ E, ¬ t.Below j n) →
      ∀ i, i ∈ defaults t n E ↔ i ∈ E ∨ ∃ m, DefaultStep t n m ∧ Descent t m i)
    (h : ∀ j ∈ E, ¬ t.Below j n) (i : Nat) :
    i ∈ withDefaults t E n ↔ i ∈ E ∨ Descent t n i := by
  have hfresh : ∀ j ∈ E.insert n, ¬ t.Below j n := by
    intro j hj hb
    rcases SortedSet.mem_insert.mp hj with rfl | hj
    · exact not_below_self hb
    · exact h j hj hb
  rw [withDefaults, hdefaults _ hfresh i, SortedSet.mem_insert, descent_iff]
  constructor
  · rintro ((h | h) | h)
    · exact Or.inr (Or.inl h)
    · exact Or.inl h
    · exact Or.inr (Or.inr h)
  · rintro (h | h | h)
    · exact Or.inl (Or.inr h)
    · exact Or.inl (Or.inl h)
    · exact Or.inr h

/-- **What the default descent enters where nothing has been entered yet.** -/
theorem mem_defaults (w : t.WellFormed) : ∀ {E : NodeSet}, (∀ j ∈ E, ¬ t.Below j n) →
    ∀ i, i ∈ defaults t n E ↔ i ∈ E ∨ ∃ m, DefaultStep t n m ∧ Descent t m i := by
  induction hk : t.size - n using Nat.strong_induction_on generalizing n with
  | _ k ih =>
      intro E hfresh i
      -- what is known of the children, which are entered as well
      have hchild : ∀ r, t.parent r = some n → ∀ E : NodeSet, Bare t E r →
          ∀ i, i ∈ withDefaults t E r ↔ i ∈ E ∨ Descent t r i := by
        intro r hr E hbare
        have hlt := lt_of_child (w.mem_children.mpr hr)
        exact mem_withDefaults_of (fun _ hfresh' => ih (t.size - r) (by omega) rfl hfresh')
          fun j hj hb => hbare j hj hb.within
      by_cases hcompound : t.kind n = .compound
      · obtain ⟨c, hc, hinitial⟩ := w.initial hcompound
        have hparent := (w.mem_regions.mp hc).1
        rw [defaults_compound hcompound hinitial,
          hchild c hparent E (bare_of_fresh hfresh hparent) i]
        refine or_congr_right ⟨fun h => ⟨c, .initial hcompound hinitial, h⟩, ?_⟩
        rintro ⟨m, hstep, h⟩
        cases hstep with
        | initial _ hm => rw [hinitial] at hm; cases hm; exact h
        | region hparallel _ => rw [hcompound] at hparallel; cases hparallel
      by_cases hparallel : t.kind n = .parallel
      · have hregion : ∀ r ∈ t.regions n, t.parent r = some n := fun r hr =>
          (w.mem_regions.mp hr).1
        rw [defaults_parallel hparallel,
          mem_fillRegions w (fun r hr => hchild r (hregion r hr)) hregion (w.nodup_regions n)
            (fun _ _ => bare_empty)]
        refine or_congr_right ⟨?_, ?_⟩
        · rintro ⟨r, hr, _, h⟩
          exact ⟨r, .region hparallel hr, h⟩
        · rintro ⟨m, hstep, h⟩
          have hm := hstep.mem_regions w
          exact ⟨m, hm, bare_of_fresh hfresh (hregion m hm), h⟩
      · rw [defaults_end hcompound hparallel]
        refine ⟨Or.inl, ?_⟩
        rintro (h | ⟨m, hstep, _⟩)
        · exact h
        · cases hstep with
          | initial h _ => exact absurd h hcompound
          | region h _ => exact absurd h hparallel

/-- A node that nothing below has been entered of is entered with its descent. -/
theorem mem_withDefaults (w : t.WellFormed) (h : ∀ j ∈ E, ¬ t.Below j n) (i : Nat) :
    i ∈ withDefaults t E n ↔ i ∈ E ∨ Descent t n i :=
  mem_withDefaults_of (fun _ hfresh => mem_defaults w hfresh) h i

/-- A node on the way up is entered with the regions beside the way. -/
theorem mem_ancestor (w : t.WellFormed) (hconfig : ∀ j ∈ config, ¬ t.Below j n) (i : Nat) :
    i ∈ ancestor t config E n ↔ i ∈ E ∨ i = n ∨
      (t.kind n = .parallel ∧ ∃ r ∈ t.regions n, Bare t E r ∧ Descent t r i) := by
  rw [ancestor]
  by_cases hkind : t.kind n = .parallel
  · have hregion : ∀ r ∈ t.regions n, t.parent r = some n := fun r hr =>
      (w.mem_regions.mp hr).1
    have hbare : ∀ r ∈ t.regions n, (Bare t (E.insert n) r ↔ Bare t E r) := by
      intro r hr
      constructor
      · intro h j hj
        exact h j (SortedSet.mem_insert.mpr (Or.inr hj))
      · intro h j hj hw
        rcases SortedSet.mem_insert.mp hj with rfl | hj
        · exact (below_of_parent (hregion r hr)).not_within hw
        · exact h j hj hw
    rw [if_pos hkind, mem_fillRegions w
      (fun r _ E hbare i => mem_withDefaults w (fun j hj hb => hbare j hj hb.within) i)
      hregion (w.nodup_regions n) (fun r hr => bare_of_fresh hconfig (hregion r hr)),
      SortedSet.mem_insert]
    constructor
    · rintro ((h | h) | ⟨r, hr, hb, h⟩)
      · exact Or.inr (Or.inl h)
      · exact Or.inl h
      · exact Or.inr (Or.inr ⟨hkind, r, hr, (hbare r hr).mp hb, h⟩)
    · rintro (h | h | ⟨_, r, hr, hb, h⟩)
      · exact Or.inl (Or.inr h)
      · exact Or.inl (Or.inl h)
      · exact Or.inr ⟨r, hr, (hbare r hr).mpr hb, h⟩
  · rw [if_neg hkind, SortedSet.mem_insert]
    constructor
    · rintro (h | h)
      · exact Or.inr (Or.inl h)
      · exact Or.inl h
    · rintro (h | h | ⟨h, _⟩)
      · exact Or.inr h
      · exact Or.inl h
      · exact absurd h hkind

end Statechart.Entry
