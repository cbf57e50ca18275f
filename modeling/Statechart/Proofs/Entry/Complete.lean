/-
What grows from seeds is complete.

`Grown` is everything that a transition enters below its domain, and this file shows
that it is what a configuration needs there: closed upwards as far as the domain, one
child below each compound node, and every region below each parallel one.

Every node that grows is on the way from a seed to the domain or in the descent from a
`Top`, a seed or a region beside the way.  Two tops are never in one line
(`top_unique`), and no seed lies below a top (`Top.not_below`), so a node is of one of
the two sorts only and its children are entered for one reason only.  That is all that
uniqueness of the child of a compound node needs.

Of the domain itself only its child is spoken for, if it is a compound node.  A parallel
domain has its regions completed only when it is itself a seed.
-/
import Mathlib.Logic.ExistsUnique
import Statechart.Proofs.Entry.Growth

namespace Statechart.Entry

open Statechart.Tree

variable {t : Tree} {D n i p x y b c : Nat} {L : List Nat}

/-- Where a descent begins: a seed, or a region beside the way. -/
def Top (t : Tree) (D : Nat) (L : List Nat) (x : Nat) : Prop :=
  x ∈ L ∨ ∃ p, OnWay t D L p ∧ Beside t L p x

theorem grown_iff : Grown t D L i ↔ OnWay t D L i ∨ ∃ x, Top t D L x ∧ Descent t x i := by
  constructor
  · rintro (⟨n, hn, h⟩ | h | ⟨p, r, hp, hr, h⟩)
    · exact Or.inr ⟨n, Or.inl hn, h⟩
    · exact Or.inl h
    · exact Or.inr ⟨r, Or.inr ⟨p, hp, hr⟩, h⟩
  · rintro (h | ⟨x, hx | ⟨p, hp, hr⟩, h⟩)
    · exact Or.inr (Or.inl h)
    · exact Or.inl ⟨x, hx, h⟩
    · exact Or.inr (Or.inr ⟨p, x, hp, hr, h⟩)

theorem Beside.parent (w : t.WellFormed) (h : Beside t L p x) : t.parent x = some p :=
  (w.mem_regions.mp h.2.1).1

/-! ### Tops -/

/-- No seed lies below a top. -/
theorem Top.not_below (hL : Scattered t D L) (hx : Top t D L x) (hn : n ∈ L) : ¬ t.Below n x := by
  intro hb
  rcases hx with hx | ⟨p, _, hp⟩
  · exact hL.apart n hn x hx hb
  · exact hp.2.2 ⟨n, hn, hb.within⟩

theorem Top.within (w : t.WellFormed) (hL : Scattered t D L) (hx : Top t D L x) : t.Within x D := by
  rcases hx with hx | ⟨p, ⟨_, _, _, hpD⟩, hp⟩
  · exact hL.within x hx
  · exact ((below_of_parent (hp.parent w)).below hpD.within).within

/-- Two tops are not in one line. -/
theorem top_unique (w : t.WellFormed) (hL : Scattered t D L) (hx : Top t D L x) (hy : Top t D L y)
    (hix : t.Within i x) (hiy : t.Within i y) : x = y := by
  have hline : ∀ {x y : Nat}, Top t D L x → Top t D L y → ¬ t.Below x y := by
    intro x y hx hy hb
    rcases hx with hx | ⟨p, ⟨n, hn, hnp, _⟩, hp⟩
    · exact hy.not_below hL hx hb
    · rw [below_iff_of_parent (hp.parent w)] at hb
      exact hy.not_below hL hn (hnp.below hb)
  rcases hix.comparable hiy with h | h
  · rcases h with h | h
    · exact h
    · exact absurd h (hline hx hy)
  · rcases h with h | h
    · exact h.symm
    · exact absurd h (hline hy hx)

/-- What lies on the way is in no descent, since a seed lies below it. -/
theorem OnWay.not_within (hL : Scattered t D L) (hi : OnWay t D L i) (hx : Top t D L x) :
    ¬ t.Within i x := by
  obtain ⟨n, hn, hni, _⟩ := hi
  exact fun h => hx.not_below hL hn (hni.below h)

/-! ### Where the grown nodes are -/

theorem Grown.within (w : t.WellFormed) (hL : Scattered t D L) (h : Grown t D L i) :
    t.Within i D := by
  rcases grown_iff.mp h with ⟨_, _, _, hi⟩ | ⟨x, hx, hi⟩
  · exact hi.within
  · exact (hi.within w).trans (hx.within w hL)

/-- The last step of a descent is the step to the node from its parent. -/
theorem Descent.cases_parent (w : t.WellFormed) (h : Descent t x i) (hi : t.parent i = some p) :
    i = x ∨ (Descent t x p ∧ DefaultStep t p i) := by
  rcases Relation.ReflTransGen.cases_tail h with h | ⟨j, hj, hstep⟩
  · exact Or.inl h
  · have hparent := hstep.parent w
    rw [hi] at hparent
    cases hparent
    exact Or.inr ⟨hj, hstep⟩

/-- Above a grown node everything is grown up to the domain. -/
theorem Grown.parent (w : t.WellFormed) (h : Grown t D L i) (hiD : t.Below i D)
    (hp : t.parent i = some p) : p = D ∨ Grown t D L p := by
  have hpD := (below_iff_of_parent hp).mp hiD
  have hway : ∀ n ∈ L, t.Below n p → p = D ∨ Grown t D L p := by
    intro n hn hb
    rcases hpD with h | h
    · exact Or.inl h
    · exact Or.inr (grown_iff.mpr (Or.inl ⟨n, hn, hb, h⟩))
  rcases grown_iff.mp h with ⟨n, hn, hni, _⟩ | ⟨x, hx, hi⟩
  · exact hway n hn (hni.trans (below_of_parent hp))
  · rcases hi.cases_parent w hp with rfl | ⟨hxp, _⟩
    · rcases hx with hx | ⟨q, hq, hbeside⟩
      · exact hway i hx (below_of_parent hp)
      · have hparent := hbeside.parent w
        rw [hp] at hparent
        cases hparent
        exact Or.inr (grown_iff.mpr (Or.inl hq))
    · exact Or.inr (grown_iff.mpr (Or.inr ⟨x, hx, hxp⟩))

/-- Grown nodes are nodes of the tree that may be active. -/
theorem Grown.active (w : t.WellFormed) (hL : Scattered t D L) (h : Grown t D L i) :
    i < t.size ∧ t.isHistory i = false := by
  have hregion : ∀ {p c : Nat}, c ∈ t.regions p → c < t.size ∧ t.isHistory c = false := by
    intro p c hc
    obtain ⟨hparent, hactive⟩ := w.mem_regions.mp hc
    exact ⟨lt_size_of_parent hparent, hactive⟩
  rcases grown_iff.mp h with ⟨n, hn, hni, _⟩ | ⟨x, hx, hi⟩
  · exact ⟨Nat.lt_trans hni.lt (hL.inTree n hn), w.isHistory_of_below hni⟩
  · rcases Relation.ReflTransGen.cases_tail hi with rfl | ⟨j, _, hstep⟩
    · rcases hx with hx | ⟨q, _, hbeside⟩
      · exact ⟨hL.inTree i hx, hL.active i hx⟩
      · exact hregion hbeside.2.1
    · exact hregion (hstep.mem_regions w)

/-! ### Below a compound node -/

/-- Towards a seed, the next node grows and may be active. -/
theorem exists_child_towards (w : t.WellFormed) (hL : Scattered t D L) (hn : n ∈ L)
    (hb : t.Below n i) (hi : t.Within i D) :
    ∃ c ∈ t.regions i, t.Within n c ∧ Grown t D L c := by
  obtain ⟨c, hc, hnc⟩ := hb.exists_child
  have hgrown : Grown t D L c := by
    rcases hnc with rfl | hnc
    · exact Or.inl ⟨n, hn, .refl⟩
    · exact Or.inr (Or.inl ⟨n, hn, hnc, (below_of_parent hc).below hi⟩)
  exact ⟨c, w.mem_regions.mpr ⟨hc, (hgrown.active w hL).2⟩, hnc, hgrown⟩

/-- A compound node at or above which a seed lies has one grown child. -/
theorem existsUnique_child_of_seed (w : t.WellFormed) (hL : Seeds t D L)
    (hkind : t.kind i = .compound) (hn : n ∈ L) (hb : t.Below n i) (hi : t.Within i D) :
    ∃! c, c ∈ t.regions i ∧ Grown t D L c := by
  obtain ⟨c, hc, hnc, hgrown⟩ := exists_child_towards w hL.toScattered hn hb hi
  refine ⟨c, ⟨hc, hgrown⟩, ?_⟩
  rintro b ⟨hb', hbgrown⟩
  have hparent := (w.mem_regions.mp hb').1
  -- a child of a compound node grows only because a seed is in its subtree
  have hseeded : Seeded t L b := by
    rcases grown_iff.mp hbgrown with ⟨m, hm, hmb, _⟩ | ⟨x, hx, hxb⟩
    · exact ⟨m, hm, hmb.within⟩
    · rcases hxb.cases_parent w hparent with rfl | ⟨hxi, _⟩
      · rcases hx with hx | ⟨q, _, hbeside⟩
        · exact ⟨b, hx, within_self⟩
        · have hq := hbeside.parent w
          rw [hparent] at hq
          cases hq
          rw [hbeside.1] at hkind
          cases hkind
      · exact absurd (hb.below (hxi.within w)) (hx.not_below hL.toScattered hn)
  obtain ⟨m, hm, hmb⟩ := hseeded
  exact hL.agree i b c hkind hparent (w.mem_regions.mp hc).1 m hm n hn hmb hnc

/-- A compound node in a descent has one grown child, its initial one. -/
theorem existsUnique_child_of_descent (w : t.WellFormed) (hL : Scattered t D L)
    (hkind : t.kind i = .compound) (hx : Top t D L x) (hi : Descent t x i) :
    ∃! c, c ∈ t.regions i ∧ Grown t D L c := by
  obtain ⟨c, hc, hinitial⟩ := w.initial hkind
  refine ⟨c, ⟨hc, grown_iff.mpr (Or.inr ⟨x, hx, .tail hi (.initial hkind hinitial)⟩)⟩, ?_⟩
  rintro b ⟨hb, hbgrown⟩
  have hparent := (w.mem_regions.mp hb).1
  have hbx : t.Below b x := (below_of_parent hparent).below (hi.within w)
  rcases grown_iff.mp hbgrown with hway | ⟨y, hy, hyb⟩
  · exact absurd hbx.within (hway.not_within hL hx)
  · have hxy := top_unique w hL hx hy hbx.within (hyb.within w)
    subst hxy
    rcases hyb.cases_parent w hparent with rfl | ⟨_, hstep⟩
    · exact absurd hbx not_below_self
    · cases hstep with
      | initial _ hchild =>
          rw [hinitial] at hchild
          exact (Option.some.inj hchild).symm
      | region hparallel _ =>
          rw [hkind] at hparallel
          cases hparallel

/-- **Below a compound node that grows exactly one child grows.** -/
theorem Grown.existsUnique_child (w : t.WellFormed) (hL : Seeds t D L)
    (hkind : t.kind i = .compound) (h : Grown t D L i) :
    ∃! c, c ∈ t.regions i ∧ Grown t D L c := by
  rcases grown_iff.mp h with ⟨n, hn, hni, hiD⟩ | ⟨x, hx, hi⟩
  · exact existsUnique_child_of_seed w hL hkind hn hni hiD.within
  · exact existsUnique_child_of_descent w hL.toScattered hkind hx hi

/-- Below a compound domain exactly one child grows. -/
theorem existsUnique_child_of_domain (w : t.WellFormed) (hL : Seeds t D L)
    (hkind : t.kind D = .compound) : ∃! c, c ∈ t.regions D ∧ Grown t D L c := by
  obtain ⟨n, hn⟩ := List.exists_mem_of_ne_nil L hL.nonempty
  rcases hL.within n hn with rfl | hb
  · exact existsUnique_child_of_descent w hL.toScattered hkind (Or.inl hn) .refl
  · exact existsUnique_child_of_seed w hL hkind hn hb within_self

/-! ### Below a parallel node -/

/-- **Below a parallel node that grows every region grows.** -/
theorem Grown.regions (hkind : t.kind i = .parallel) (h : Grown t D L i) (hc : c ∈ t.regions i)
    (hparent : t.parent c = some i) : Grown t D L c := by
  rcases grown_iff.mp h with hway | ⟨x, hx, hi⟩
  · by_cases hseeded : Seeded t L c
    · obtain ⟨n, hn, hnc⟩ := hseeded
      obtain ⟨_, _, _, hiD⟩ := hway
      rcases hnc with rfl | hnc
      · exact Or.inl ⟨n, hn, .refl⟩
      · exact Or.inr (Or.inl ⟨n, hn, hnc, (below_of_parent hparent).trans hiD⟩)
    · exact Or.inr (Or.inr ⟨i, c, hway, ⟨hkind, hc, hseeded⟩, .refl⟩)
  · exact grown_iff.mpr (Or.inr ⟨x, hx, .tail hi (.region hkind hc)⟩)

end Statechart.Entry
