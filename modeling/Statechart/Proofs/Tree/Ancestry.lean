/-
Which node lies below which.

`Tree.ancestors` lists the nodes above a node; the proofs ask of it only whether one
node is in the list of another.  `Below` is that question and `Within` is the same with
the node itself let in.  Both are orders, and the nodes above one node form a chain:
`Within.comparable` says so, and everything that tells two subtrees apart comes from it.

Nothing here needs the tree to be well formed.  Parents have smaller numbers than their
children by the type of a tree, so every induction is on the number of the lower node.
-/
import Mathlib.Data.Nat.Init
import Statechart.Tree.Basic

namespace Statechart.Tree

variable {t : Tree} {i a b c p : Nat}

/-- `i` lies below `a`: `a` is its parent, or the parent of that, and so on. -/
def Below (t : Tree) (i a : Nat) : Prop := a ∈ t.ancestors i

/-- `i` is `a` or lies below it. -/
def Within (t : Tree) (i a : Nat) : Prop := i = a ∨ t.Below i a

instance (t : Tree) (i a : Nat) : Decidable (t.Below i a) :=
  inferInstanceAs (Decidable (a ∈ t.ancestors i))

instance (t : Tree) (i a : Nat) : Decidable (t.Within i a) :=
  inferInstanceAs (Decidable (i = a ∨ t.Below i a))

/-! ### One step up -/

theorem not_below_of_no_parent (h : t.parent i = none) : ¬ t.Below i a := by
  unfold Below
  rw [ancestors_of_no_parent h]
  exact List.not_mem_nil

theorem below_iff_of_parent (h : t.parent i = some p) : t.Below i a ↔ t.Within p a := by
  unfold Within Below
  rw [ancestors_of_parent h, List.mem_cons]
  exact ⟨fun h => h.imp_left Eq.symm, fun h => h.imp_left Eq.symm⟩

theorem below_iff : t.Below i a ↔ ∃ p, t.parent i = some p ∧ t.Within p a := by
  cases hp : t.parent i with
  | none => exact ⟨fun h => absurd h (not_below_of_no_parent hp), fun ⟨_, h, _⟩ => nomatch h⟩
  | some q =>
      rw [below_iff_of_parent hp]
      exact ⟨fun h => ⟨q, rfl, h⟩, fun ⟨r, hr, h⟩ => by cases hr; exact h⟩

theorem below_of_parent (h : t.parent i = some p) : t.Below i p :=
  (below_iff_of_parent h).mpr (Or.inl rfl)

@[simp] theorem within_self : t.Within i i := Or.inl rfl

theorem Below.within (h : t.Below i a) : t.Within i a := Or.inr h

/-! ### The order -/

/-- What lies below a node has a larger number. -/
theorem Below.lt : t.Below i a → a < i := by
  induction i using Nat.strong_induction_on generalizing a with
  | _ i ih =>
      intro h
      obtain ⟨p, hp, hw⟩ := below_iff.mp h
      have hlt := lt_of_parent hp
      rcases hw with rfl | hb
      · exact hlt
      · exact Nat.lt_trans (ih p hlt hb) hlt

theorem not_below_self : ¬ t.Below i i := fun h => Nat.lt_irrefl _ h.lt

/-- The test that the machine runs is `Below`. -/
theorem isDescendant_iff : t.isDescendant i a = true ↔ t.Below i a := by
  unfold isDescendant
  rw [Bool.and_eq_true, decide_eq_true_eq, List.contains_iff_mem]
  exact ⟨fun h => h.2, fun h => ⟨h.lt, h⟩⟩

theorem Below.trans : t.Below i a → t.Below a b → t.Below i b := by
  induction i using Nat.strong_induction_on with
  | _ i ih =>
      intro h hab
      obtain ⟨p, hp, hw⟩ := below_iff.mp h
      rw [below_iff_of_parent hp]
      rcases hw with rfl | hb
      · exact Or.inr hab
      · exact Or.inr (ih p (lt_of_parent hp) hb hab)

theorem Within.below (h : t.Within i a) (hab : t.Below a b) : t.Below i b := by
  rcases h with rfl | h
  · exact hab
  · exact h.trans hab

theorem Below.below (h : t.Below i a) (hab : t.Within a b) : t.Below i b := by
  rcases hab with rfl | hab
  · exact h
  · exact h.trans hab

theorem Within.trans (h : t.Within i a) (hab : t.Within a b) : t.Within i b := by
  rcases h with rfl | h
  · exact hab
  · exact Or.inr (h.below hab)

theorem Below.not_within (h : t.Below i a) : ¬ t.Within a i := fun hw =>
  not_below_self (h.below hw)

/-- The nodes at or above one node form a chain. -/
theorem Within.comparable : t.Within i a → t.Within i b → t.Within a b ∨ t.Within b a := by
  induction i using Nat.strong_induction_on with
  | _ i ih =>
      intro ha hb
      rcases ha with rfl | ha
      · exact Or.inl hb
      rcases hb with rfl | hb
      · exact Or.inr ha.within
      obtain ⟨p, hp, ha⟩ := below_iff.mp ha
      rw [below_iff_of_parent hp] at hb
      exact ih p (lt_of_parent hp) ha hb

/-! ### Children on the way down -/

/-- Below a node one is in the subtree of one of its children. -/
theorem Below.exists_child : t.Below i a → ∃ c, t.parent c = some a ∧ t.Within i c := by
  induction i using Nat.strong_induction_on with
  | _ i ih =>
      intro h
      obtain ⟨p, hp, hw⟩ := below_iff.mp h
      rcases hw with rfl | hb
      · exact ⟨i, hp, within_self⟩
      · obtain ⟨c, hc, hpc⟩ := ih p (lt_of_parent hp) hb
        exact ⟨c, hc, (below_of_parent hp).within.trans hpc⟩

/-- Of two nodes with one parent neither lies below the other. -/
theorem eq_of_within_of_parent (hc : t.parent c = some p) (ha : t.parent a = some p)
    (h : t.Within c a) : c = a := by
  rcases h with h | h
  · exact h
  · rw [below_iff_of_parent hc] at h
    exact absurd h (below_of_parent ha).not_within

/-- The subtrees of two children of one node have nothing in common. -/
theorem eq_of_within_children (hc : t.parent c = some p) (ha : t.parent a = some p)
    (hic : t.Within i c) (hia : t.Within i a) : c = a := by
  rcases hic.comparable hia with h | h
  · exact eq_of_within_of_parent hc ha h
  · exact (eq_of_within_of_parent ha hc h).symm

/-! ### Subtrees apart -/

/-- Nothing at or below the first node lies below the second. -/
def Apart (t : Tree) (a b : Nat) : Prop := ∀ i, t.Within i a → ¬ t.Below i b

end Statechart.Tree
