/-
What a history node brings back below its parent.

A transition to a history node grows from what the node remembers, or from the parent of
the node if it remembers nothing.  The way up to the domain and the regions beside it lie
outside the parent or are on it, so that below the parent only the seeds and their descents
count (`within_of_beside`), and the three kinds of seeds come out as they should: the
descent of the parent, the children that were active with their descents, and exactly what
was active.

The last of them rests on the leaves.  In a legal configuration without an empty parallel
node there is a leaf at or below every node, so the leaves that a deep history node
remembers leave no region out.
-/
import Statechart.Proofs.Entry.Complete
import Statechart.Proofs.Value.Reading

namespace Statechart.Entry

open Statechart.Tree

variable {t : Tree} {D P T i n p r : Nat} {L : List Nat} {C : NodeSet} {history : HistoryStore}

/-- The active parallel nodes have regions. -/
def Full (t : Tree) (C : NodeSet) : Prop :=
  ∀ p ∈ C, t.kind p = .parallel → t.regions p ≠ []

instance (t : Tree) (C : NodeSet) : Decidable (Full t C) :=
  inferInstanceAs (Decidable (∀ p ∈ C.toList, t.kind p = .parallel → t.regions p ≠ []))

/-- In a full configuration there is a leaf at or below every node. -/
theorem exists_leaf (w : t.WellFormed) (hC : Legal t C) (hfull : Full t C) (hi : i ∈ C) :
    ∃ n ∈ C, t.isLeaf n = true ∧ t.Within n i := by
  have hmem : ∀ n, Shows t C i n → n ∈ C := fun n hn =>
    (shows_iff_mem w hC).mp (((shows_iff_mem w hC).mpr hi).trans hn)
  obtain ⟨n, hn, hends⟩ := exists_end w fun n hn hkind =>
    hC.exists_region (hmem n hn) (Or.inl hkind) (hfull n (hmem n hn))
  refine ⟨n, hmem n hn, ?_, hn.within w⟩
  cases hkind : t.kind n with
  | atomic | final => rw [isLeaf, hkind]; rfl
  | compound => exact absurd hkind hends.1
  | parallel => exact absurd (hends.2 hkind) (hfull n (hmem n hn) hkind)
  | history k =>
      have hactive := hC.history n (hmem n hn)
      rw [isHistory, hkind] at hactive
      cases hactive

/-! ### Below the parent -/

/-- If all seeds are within a node, a region beside the way reaches below the node only from
within it. -/
theorem within_of_beside (w : t.WellFormed) (hL : ∀ n ∈ L, t.Within n P) (hp : OnWay t D L p)
    (hr : Beside t L p r) (hir : t.Within i r) (hi : t.Below i P) : t.Within p P := by
  obtain ⟨n, hn, _, _⟩ := hp
  have hPr : ¬ t.Within P r := fun h => hr.2.2 ⟨n, hn, (hL n hn).trans h⟩
  have hrP := (hir.comparable hi.within).resolve_right hPr
  rcases hrP with rfl | hb
  · exact absurd within_self hPr
  · exact (below_iff_of_parent (hr.parent w)).mp hb

/-- Below a parent that is the only seed its descent grows. -/
theorem grown_below_parent (w : t.WellFormed) (hi : t.Below i P) :
    Grown t D [P] i ↔ Descent t P i := by
  have hself : ∀ n ∈ [P], t.Within n P := fun n hn => Or.inl (List.mem_singleton.mp hn)
  constructor
  · rintro (⟨n, hn, h⟩ | ⟨n, hn, hb, _⟩ | ⟨p, r, hp, hr, h⟩)
    · rwa [List.mem_singleton.mp hn] at h
    · rw [List.mem_singleton.mp hn] at hb
      exact absurd hb.within hi.not_within
    · have hpP := within_of_beside w hself hp hr (h.within w) hi
      obtain ⟨n, hn, hb, _⟩ := hp
      rw [List.mem_singleton.mp hn] at hb
      exact absurd hpP hb.not_within
  · exact fun h => Or.inl ⟨P, List.mem_singleton.mpr rfl, h⟩

/-- Below the parent the children that were active grow, each with its descent. -/
theorem grown_below_shallow (w : t.WellFormed) (hC : Legal t C) (hi : t.Below i P) :
    Grown t D (HistoryStore.remembered t .shallow P C) i ↔
      ∃ c ∈ t.regions P, c ∈ C ∧ Descent t c i := by
  have hmem : ∀ n, n ∈ HistoryStore.remembered t .shallow P C ↔ n ∈ t.regions P ∧ n ∈ C :=
    fun n => by rw [HistoryStore.remembered, List.mem_filter, decide_eq_true_eq]
  have hparent : ∀ n ∈ HistoryStore.remembered t .shallow P C, t.parent n = some P := fun n hn =>
    (w.mem_regions.mp ((hmem n).mp hn).1).1
  constructor
  · rintro (⟨n, hn, h⟩ | ⟨n, hn, hb, _⟩ | ⟨p, r, hp, hr, h⟩)
    · exact ⟨n, ((hmem n).mp hn).1, ((hmem n).mp hn).2, h⟩
    · rw [below_iff_of_parent (hparent n hn)] at hb
      exact absurd hb hi.not_within
    · -- the way is the parent itself here, and all its regions were active
      have hpP := within_of_beside w (fun n hn => (below_of_parent (hparent n hn)).within) hp hr
        (h.within w) hi
      obtain ⟨n, hn, hb, _⟩ := hp
      rw [below_iff_of_parent (hparent n hn)] at hb
      have heq : p = P := hpP.resolve_right fun h => absurd hb h.not_within
      subst heq
      have hpC := hC.parent n ((hmem n).mp hn).2 p (hparent n hn)
      exact absurd ⟨r, (hmem r).mpr ⟨hr.2.1, hC.regions p hpC hr.1 r hr.2.1⟩, within_self⟩ hr.2.2
  · rintro ⟨c, hc, hcC, h⟩
    exact Or.inl ⟨c, (hmem c).mpr ⟨hc, hcC⟩, h⟩

/-- A leaf has nothing in its descent but itself. -/
theorem descent_of_isLeaf (w : t.WellFormed) (hn : t.isLeaf n = true) (h : Descent t n i) :
    i = n := by
  refine (h.within w).resolve_right fun hb => ?_
  rw [w.isLeaf_of_below hb] at hn
  cases hn

/-- Below the parent exactly what was active grows. -/
theorem grown_below_deep (w : t.WellFormed) (hC : Legal t C) (hfull : Full t C)
    (hPD : t.Within P D) (hi : t.Below i P) :
    Grown t D (HistoryStore.remembered t .deep P C) i ↔ i ∈ C := by
  have hmem : ∀ n, n ∈ HistoryStore.remembered t .deep P C ↔
      n ∈ C ∧ t.isLeaf n = true ∧ t.Below n P := fun n => by
    rw [HistoryStore.remembered, List.mem_filter, Bool.and_eq_true, isDescendant_iff,
      SortedSet.mem_toList]
  -- what is active below the parent has a seed at it or below it
  have hseed : ∀ {j}, j ∈ C → t.Below j P → ∃ n ∈ HistoryStore.remembered t .deep P C,
      t.Within n j := fun hj hb => by
    obtain ⟨n, hn, hleaf, hw⟩ := exists_leaf w hC hfull hj
    exact ⟨n, (hmem n).mpr ⟨hn, hleaf, hw.below hb⟩, hw⟩
  constructor
  · rintro (⟨n, hn, h⟩ | ⟨n, hn, hb, _⟩ | ⟨p, r, hp, hr, h⟩)
    · obtain ⟨hnC, hleaf, _⟩ := (hmem n).mp hn
      rwa [descent_of_isLeaf w hleaf h]
    · exact hC.mem_of_within ((hmem n).mp hn).1 hb.within
    · have hpP := within_of_beside w (fun n hn => ((hmem n).mp hn).2.2.within) hp hr
        (h.within w) hi
      obtain ⟨n, hn, hb, _⟩ := hp
      have hpC := hC.mem_of_within ((hmem n).mp hn).1 hb.within
      have hrC := hC.regions p hpC hr.1 r hr.2.1
      exact absurd (hseed hrC ((below_of_parent (hr.parent w)).below hpP)) hr.2.2
  · intro hiC
    obtain ⟨n, hn, hw⟩ := hseed hiC hi
    rcases hw with rfl | hb
    · exact Or.inl ⟨n, hn, .refl⟩
    · exact Or.inr (Or.inl ⟨n, hn, hb, hi.below hPD⟩)

/-! ### The seeds of a history node -/

theorem seeds_of_none (hT : t.isHistory T = true) (hP : t.parent T = some P)
    (h : history.get? T = none) : seeds t history T = [P] := by
  unfold seeds
  rw [if_pos hT, hP]
  simp only [h]

theorem seeds_of_some (hT : t.isHistory T = true) (hP : t.parent T = some P)
    {record : HistoryRecord} (h : history.get? T = some record) (hne : record.nodes ≠ []) :
    seeds t history T = record.nodes := by
  obtain ⟨kind, nodes⟩ := record
  unfold seeds
  rw [if_pos hT, hP]
  simp only [h]
  cases nodes with
  | nil => exact absurd rfl hne
  | cons n rest => rfl

/-- What a history node brings back below its parent, of what was active before. -/
def Restored (t : Tree) (kind : HistoryKind) (P : Nat) (C : NodeSet) (i : Nat) : Prop :=
  match kind with
  | .shallow => ∃ c ∈ t.regions P, c ∈ C ∧ Descent t c i
  | .deep => i ∈ C

/-- **What grows below the parent of a history node that has a record.** -/
theorem grown_below_remembered (w : t.WellFormed) {kind : HistoryKind} (hC : Legal t C)
    (hfull : Full t C) (hPD : t.Within P D) (hi : t.Below i P) :
    Grown t D (HistoryStore.remembered t kind P C) i ↔ Restored t kind P C i := by
  cases kind with
  | shallow => exact grown_below_shallow w hC hi
  | deep => exact grown_below_deep w hC hfull hPD hi

/-- A node with children that was exited is remembered by something. -/
theorem remembered_ne_nil (w : t.WellFormed) (kind : HistoryKind) (hC : Legal t C)
    (hfull : Full t C) (hT : t.parent T = some P) (hP : P ∈ C) :
    HistoryStore.remembered t kind P C ≠ [] := by
  obtain ⟨c, hc, hcC⟩ := hC.exists_region hP (w.kind_of_child hT) (hfull P hP)
  cases kind with
  | shallow =>
      refine List.ne_nil_of_mem (a := c) (List.mem_filter.mpr ⟨hc, ?_⟩)
      exact decide_eq_true hcC
  | deep =>
      obtain ⟨n, hn, hleaf, hw⟩ := exists_leaf w hC hfull hcC
      refine List.ne_nil_of_mem (a := n) (List.mem_filter.mpr ⟨hn, ?_⟩)
      rw [hleaf, Bool.true_and, isDescendant_iff]
      exact hw.below (below_of_parent (w.mem_regions.mp hc).1)

end Statechart.Entry
