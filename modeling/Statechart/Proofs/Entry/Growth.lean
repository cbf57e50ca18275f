/-
What a transition enters, in one formula.

A target stands for its `seeds`: itself, or the nodes that a history node remembers, or
the parent of a history node that remembers nothing.  The code grows the set of entered
nodes from the seeds, first down and then up to the domain, and asks at every parallel
node on the way which regions something has been entered in already.  `Grown` says what
comes out without asking: the nodes between a seed and the domain, and the descents from
the seeds and from those regions on the way that hold no seed.

`step_reached` is why the question has the answer that `Grown` expects.  A region that
holds no seed is covered only if it has been filled before, as a whole, and then filling
it again would add nothing.  The induction along the way is `mem_foldl_ancestor`, and
`mem_transition` puts the three kinds of targets together.

All of this needs the seeds to be `Scattered` only.  That what grows from them is complete
is another matter, and for it `Seeds` asks for more.
-/
import Statechart.Proofs.Entry.Descent

namespace Statechart.Entry

open Statechart.Tree

variable {t : Tree} {D T n i : Nat} {L : List Nat} {E config : NodeSet} {history : HistoryStore}

/-- The nodes that a target has entered with their descents. -/
def seeds (t : Tree) (history : HistoryStore) (target : Nat) : List Nat :=
  if t.isHistory target then
    match t.parent target with
    | none => []
    | some parent =>
      match history.get? target with
      | some ⟨_, n :: rest⟩ => n :: rest
      | _ => [parent]
  else [target]

/-- What has to hold of nodes under a domain for what grows from them to be told apart. -/
structure Scattered (t : Tree) (D : Nat) (L : List Nat) : Prop where
  /-- There is a seed. -/
  nonempty : L ≠ []
  /-- No seed is listed twice. -/
  nodup : L.Nodup
  /-- The seeds are at the domain or below it. -/
  within : ∀ n ∈ L, t.Within n D
  /-- The seeds are nodes of the tree. -/
  inTree : ∀ n ∈ L, n < t.size
  /-- The seeds may be active. -/
  active : ∀ n ∈ L, t.isHistory n = false
  /-- No seed lies below another. -/
  apart : ∀ n ∈ L, ∀ m ∈ L, ¬ t.Below n m

/-- What has to hold of seeds under a domain for them to grow into a configuration. -/
structure Seeds (t : Tree) (D : Nat) (L : List Nat) : Prop extends Scattered t D L where
  /-- Below a compound node all seeds are in the subtree of one child. -/
  agree : ∀ p b c, t.kind p = .compound → t.parent b = some p → t.parent c = some p →
    ∀ n ∈ L, ∀ m ∈ L, t.Within n b → t.Within m c → b = c

/-- A seed is at a node or below it. -/
def Seeded (t : Tree) (L : List Nat) (r : Nat) : Prop := ∃ n ∈ L, t.Within n r

/-- A node lies strictly between a seed and the domain. -/
def OnWay (t : Tree) (D : Nat) (L : List Nat) (i : Nat) : Prop :=
  ∃ n ∈ L, t.Below n i ∧ t.Below i D

/-- A region of a parallel node is entered on its own, because it holds no seed. -/
def Beside (t : Tree) (L : List Nat) (p r : Nat) : Prop :=
  t.kind p = .parallel ∧ r ∈ t.regions p ∧ ¬ Seeded t L r

/-- What grows from seeds up to a domain. -/
def Grown (t : Tree) (D : Nat) (L : List Nat) (i : Nat) : Prop :=
  (∃ n ∈ L, Descent t n i) ∨ OnWay t D L i ∨
    ∃ p r, OnWay t D L p ∧ Beside t L p r ∧ Descent t r i

/-! ### The way up -/

/-- What has been entered when the seeds and some nodes on the way have been. -/
def Reached (t : Tree) (L : List Nat) (E : NodeSet) (passed : List Nat) (i : Nat) : Prop :=
  i ∈ E ∨ (∃ n ∈ L, Descent t n i) ∨ i ∈ passed ∨
    ∃ p ∈ passed, ∃ r, Beside t L p r ∧ Descent t r i

/-- A region without a seed that is covered has been filled. -/
theorem reached_of_covered (w : t.WellFormed) (hL : Scattered t D L) {passed : List Nat}
    (hE : ∀ j ∈ E, ¬ t.Below j D) (hpassed : ∀ a ∈ passed, OnWay t D L a) {a r j : Nat}
    (ha : OnWay t D L a) (hr : Beside t L a r) (hj : Reached t L E passed j)
    (hjr : t.Within j r) (hi : Descent t r i) : Reached t L E passed i := by
  obtain ⟨hkind, hregion, hseed⟩ := hr
  have hparent := (w.mem_regions.mp hregion).1
  obtain ⟨m, hm, hma, haD⟩ := ha
  rcases hj with hj | ⟨n, hn, hj⟩ | hj | ⟨b, hb, r', hr', hj⟩
  · exact absurd (hjr.below ((below_of_parent hparent).below haD.within)) (hE j hj)
  · rcases (hj.within w).comparable hjr with h | h
    · exact absurd ⟨n, hn, h⟩ hseed
    · rcases h with rfl | h
      · exact absurd ⟨r, hn, within_self⟩ hseed
      · rw [below_iff_of_parent hparent] at h
        exact absurd (hma.below h) (hL.apart m hm n hn)
  · obtain ⟨n, hn, hnj, _⟩ := hpassed j hj
    exact absurd ⟨n, hn, hnj.within.trans hjr⟩ hseed
  · obtain ⟨n, hn, hnb, _⟩ := hpassed b hb
    have hparent' := (w.mem_regions.mp hr'.2.1).1
    rcases (hj.within w).comparable hjr with h | h
    · rcases h with rfl | h
      · exact Or.inr (Or.inr (Or.inr ⟨b, hb, r', hr', hi⟩))
      · rw [below_iff_of_parent hparent'] at h
        exact absurd ⟨n, hn, hnb.within.trans h⟩ hseed
    · rcases h with rfl | h
      · exact Or.inr (Or.inr (Or.inr ⟨b, hb, r, hr', hi⟩))
      · rw [below_iff_of_parent hparent] at h
        exact absurd ⟨m, hm, hma.within.trans h⟩ hr'.2.2

/-- One node on the way: it is entered, and its regions without a seed are. -/
theorem step_reached (w : t.WellFormed) (hL : Scattered t D L) {passed : List Nat} {E₀ : NodeSet}
    (hE₀ : ∀ j ∈ E₀, ¬ t.Below j D) (hconfig : ∀ j ∈ config, ¬ t.Below j D)
    (hpassed : ∀ a ∈ passed, OnWay t D L a) {a : Nat} (ha : OnWay t D L a)
    (hE : ∀ i, i ∈ E ↔ Reached t L E₀ passed i) (i : Nat) :
    i ∈ ancestor t config E a ↔ Reached t L E₀ (passed ++ [a]) i := by
  have haD : t.Below a D := by obtain ⟨_, _, _, h⟩ := ha; exact h
  rw [mem_ancestor w (fun j hj hb => hconfig j hj (hb.trans haD)), hE]
  constructor
  · rintro (h | rfl | ⟨hkind, r, hr, hbare, hi⟩)
    · rcases h with h | h | h | ⟨p, hp, h⟩
      · exact Or.inl h
      · exact Or.inr (Or.inl h)
      · exact Or.inr (Or.inr (Or.inl (List.mem_append_left _ h)))
      · exact Or.inr (Or.inr (Or.inr ⟨p, List.mem_append_left _ hp, h⟩))
    · exact Or.inr (Or.inr (Or.inl (List.mem_append_right _ (List.mem_singleton.mpr rfl))))
    · refine Or.inr (Or.inr (Or.inr ⟨a, List.mem_append_right _ (List.mem_singleton.mpr rfl), r,
        ⟨hkind, hr, ?_⟩, hi⟩))
      rintro ⟨n, hn, hw⟩
      exact hbare n ((hE n).mpr (Or.inr (Or.inl ⟨n, hn, .refl⟩))) hw
  · rintro (h | h | h | ⟨p, hp, r, hr, hi⟩)
    · exact Or.inl (Or.inl h)
    · exact Or.inl (Or.inr (Or.inl h))
    · rcases List.mem_append.mp h with h | h
      · exact Or.inl (Or.inr (Or.inr (Or.inl h)))
      · exact Or.inr (Or.inl (List.mem_singleton.mp h))
    · rcases List.mem_append.mp hp with hp | hp
      · exact Or.inl (Or.inr (Or.inr (Or.inr ⟨p, hp, r, hr, hi⟩)))
      · rw [List.mem_singleton.mp hp] at hr
        by_cases hbare : Bare t E r
        · exact Or.inr (Or.inr ⟨hr.1, r, hr.2.1, hbare, hi⟩)
        · rw [← covered_eq_false_iff, Bool.not_eq_false, covered_iff] at hbare
          obtain ⟨j, hj, hjr⟩ := hbare
          exact Or.inl (reached_of_covered w hL hE₀ hpassed ha hr ((hE j).mp hj) hjr hi)

/-- Several nodes on the way, in any order. -/
theorem mem_foldl_ancestor (w : t.WellFormed) (hL : Scattered t D L) {E₀ : NodeSet}
    (hE₀ : ∀ j ∈ E₀, ¬ t.Below j D) (hconfig : ∀ j ∈ config, ¬ t.Below j D) {way : List Nat} :
    ∀ {passed : List Nat} {E : NodeSet}, (∀ a ∈ passed, OnWay t D L a) →
      (∀ a ∈ way, OnWay t D L a) → (∀ i, i ∈ E ↔ Reached t L E₀ passed i) →
        ∀ i, i ∈ way.foldl (ancestor t config) E ↔ Reached t L E₀ (passed ++ way) i := by
  induction way with
  | nil => intro passed E _ _ hE i; rw [List.append_nil]; exact hE i
  | cons a rest ih =>
      intro passed E hpassed hway hE i
      have ha := hway a (List.mem_cons_self ..)
      have hstep := step_reached w hL hE₀ hconfig hpassed ha hE
      have hpassed' : ∀ b ∈ passed ++ [a], OnWay t D L b := by
        intro b hb
        rcases List.mem_append.mp hb with hb | hb
        · exact hpassed b hb
        · rwa [List.mem_singleton.mp hb]
      rw [List.foldl_cons, ih hpassed' (fun b hb => hway b (List.mem_cons_of_mem _ hb)) hstep i,
        List.append_assoc, List.singleton_append]

/-- When the nodes passed are all those on the way, what is reached is what grows. -/
theorem reached_iff_grown {way : List Nat} (hway : ∀ a, a ∈ way ↔ OnWay t D L a) (i : Nat) :
    Reached t L E way i ↔ i ∈ E ∨ Grown t D L i := by
  rw [Reached, Grown, hway]
  refine or_congr_right (or_congr_right (or_congr_right ?_))
  constructor
  · rintro ⟨p, hp, r, hr, h⟩
    exact ⟨p, r, (hway p).mp hp, hr, h⟩
  · rintro ⟨p, r, hp, hr, h⟩
    exact ⟨p, (hway p).mpr hp, r, hr, h⟩

/-- **What the seeds grow into, when all nodes on the way have been passed.** -/
theorem mem_grown_of_way (w : t.WellFormed) (hL : Scattered t D L) {E₀ : NodeSet}
    (hE₀ : ∀ j ∈ E₀, ¬ t.Below j D) (hconfig : ∀ j ∈ config, ¬ t.Below j D)
    (hE : ∀ i, i ∈ E ↔ i ∈ E₀ ∨ ∃ n ∈ L, Descent t n i) {way : List Nat}
    (hway : ∀ a, a ∈ way ↔ OnWay t D L a) (i : Nat) :
    i ∈ way.foldl (ancestor t config) E ↔ i ∈ E₀ ∨ Grown t D L i := by
  have hstart : ∀ i, i ∈ E ↔ Reached t L E₀ [] i := by
    intro i
    rw [hE i, Reached]
    simp
  have hmem : i ∈ way.foldl (ancestor t config) E ↔ Reached t L E₀ ([] ++ way) i :=
    mem_foldl_ancestor w hL hE₀ hconfig (by simp) (fun a ha => (hway a).mp ha) hstart i
  rw [hmem, List.nil_append, reached_iff_grown hway]

end Statechart.Entry
