/-
When a legal configuration comes back from the value that is written of it.

Every legal configuration can be written, and the value names the nodes that the
configuration ends in: its tips, and its parallel nodes without regions.  The latter are
written like leaves and refused as none when they are read.  Nothing else can go wrong, so
that a configuration without them comes back as it was, and `toConfiguration_ofConfiguration`
says both.
-/
import Statechart.Proofs.Value.Described

namespace Statechart

open Statechart.Tree Outcome

variable {t : Tree} {C : NodeSet} {n : Nat} {v : StateValue}

/-- The walk that writes a value ends at a tip, or at a parallel node without regions. -/
theorem ends_iff (w : t.WellFormed) (hactive : t.isHistory n = false) :
    Ends t n ↔ Tip t n ∨ Hollow t n := by
  constructor
  · intro hends
    cases hkind : t.kind n with
    | atomic | final => exact Or.inl (Or.inl (by rw [isLeaf, hkind]; rfl))
    | compound => exact absurd hkind hends.1
    | parallel =>
        have hregions := hends.2 hkind
        by_cases hroot : n = Tree.root
        · exact Or.inl (Or.inr ⟨hroot, hroot ▸ hregions⟩)
        · exact Or.inr ⟨hroot, hkind, hregions⟩
    | history k => rw [isHistory, hkind] at hactive; cases hactive
  · rintro ((hleaf | ⟨rfl, hregions⟩) | hhollow)
    · have hno : ∀ k, NodeKind.isLeaf k = false → t.kind n ≠ k := by
        rintro _ hk rfl
        exact Bool.false_ne_true (hk.symm.trans hleaf)
      exact ⟨hno _ rfl, fun hkind => absurd hkind (hno _ rfl)⟩
    · refine ⟨fun hkind => ?_, fun _ => hregions⟩
      obtain ⟨c, hc, _⟩ := w.initial hkind
      rw [hregions] at hc
      cases hc
    · exact hhollow.ends

namespace StateValue

/-- What is written of a legal configuration names the nodes that it ends in. -/
theorem mem_activeIds_of_legal (w : t.WellFormed) (hC : Legal t C)
    (hv : ofConfiguration t C = .ok v) (id : String) :
    id ∈ v.activeIds (t.node Tree.root).id ↔
      ∃ n ∈ C, (Tip t n ∨ Hollow t n) ∧ (t.node n).id = id := by
  rw [← SortedSet.mem_toList, mem_activeIds w hv]
  refine exists_congr fun n => ?_
  rw [shows_iff_mem w hC]
  exact and_congr_right fun hn => and_congr_left' (ends_iff w (hC.history n hn))

/-- The names are those of the tips alone exactly when there is no parallel node without
regions. -/
theorem namesTips_iff (w : t.WellFormed) (hC : Legal t C) (hv : ofConfiguration t C = .ok v) :
    NamesTips t v C ↔ ∀ n ∈ C, ¬ Hollow t n := by
  have hids := mem_activeIds_of_legal w hC hv
  constructor
  · intro hnames n hn hhollow
    obtain ⟨k, hk, htip, hname⟩ := (hnames _).mp ((hids _).mpr ⟨n, hn, Or.inr hhollow, rfl⟩)
    obtain rfl := w.eq_of_id (hC.inTree k hk) (hC.inTree n hn) hname
    rcases htip with hleaf | ⟨hroot, _⟩
    · rw [hhollow.isLeaf] at hleaf
      cases hleaf
    · exact hhollow.1 hroot
  · intro hnone id
    rw [hids]
    refine exists_congr fun n => and_congr_right fun hn => and_congr_left' ?_
    exact or_iff_left (hnone n hn)

/-- **When writing a configuration loses something.**  Every legal configuration of a tree that
loads can be written.  It comes back as it was, and its tips are named, exactly when none of its
nodes is a parallel node without regions; otherwise one of these is refused. -/
theorem toConfiguration_ofConfiguration {name : String} {c : StateConfig}
    (h : Tree.build name c = .ok t) (hC : Legal t C) :
    ∃ v, ofConfiguration t C = .ok v ∧
      (v.toConfiguration t = .ok C ↔ ∀ n ∈ C, ¬ Hollow t n) ∧
      (NamesTips t v C ↔ ∀ n ∈ C, ¬ Hollow t n) ∧
      ((∃ n ∈ C, Hollow t n) →
        ∃ n ∈ C, Hollow t n ∧ v.toConfiguration t = .error (.notLeaf (t.node n).id)) := by
  have w : t.WellFormed := wellFormed_of_build h
  obtain ⟨v, hv⟩ := exists_ofConfiguration w hC
  have hrefused : (∃ n ∈ C, Hollow t n) →
      ∃ n ∈ C, Hollow t n ∧ v.toConfiguration t = .error (.notLeaf (t.node n).id) := by
    rintro ⟨n, hn, hhollow⟩
    obtain ⟨k, hk, hkhollow, hread⟩ :=
      toConfiguration_of_hollow w hv ((shows_iff_mem w hC).mpr hn) hhollow
    exact ⟨k, (shows_iff_mem w hC).mp hk, hkhollow, hread⟩
  refine ⟨v, hv, ⟨fun hread n hn hhollow => ?_, toConfiguration_of_legal w hC hv⟩,
    namesTips_iff w hC hv, hrefused⟩
  obtain ⟨_, _, _, hrefuse⟩ := hrefused ⟨n, hn, hhollow⟩
  rw [hread] at hrefuse
  cases hrefuse

/-- A parallel root with a compound region and a parallel region that has none itself. -/
def annexChart : StateConfig :=
  { StateConfig.blank with
    type := some .parallel
    states := [
      ("a", { StateConfig.blank with
        initial := some "x"
        states := [("x", StateConfig.blank), ("y", StateConfig.blank)] }),
      ("b", { StateConfig.blank with type := some .parallel })] }

theorem exists_annex : ∃ t C, Tree.build "m" annexChart = .ok t ∧ Legal t C ∧
    ∃ n ∈ C, Hollow t n := by
  obtain ⟨t, ht, h⟩ := exists_of_run (x := Tree.build "m" annexChart)
    (p := fun t => isLegal t (SortedSet.ofList [0, 1, 3, 4]) && decide (Hollow t 4))
    (by decide +kernel)
  obtain ⟨hlegal, hhollow⟩ := Bool.and_eq_true_iff.mp h
  exact ⟨t, _, ht, (isLegal_iff (wellFormed_of_build ht)).mp hlegal, 4,
    SortedSet.mem_ofList.mpr (by simp), of_decide_eq_true hhollow⟩

/-- The annex has a legal configuration that is written and refused. -/
theorem toConfiguration_ofConfiguration_annexChart : ∃ t C v n,
    Tree.build "m" annexChart = .ok t ∧ Legal t C ∧ ofConfiguration t C = .ok v ∧
      v.toConfiguration t = .error (.notLeaf (t.node n).id) := by
  obtain ⟨t, C, ht, hC, hhollow⟩ := exists_annex
  obtain ⟨v, hv, _, _, hrefused⟩ := toConfiguration_ofConfiguration ht hC
  obtain ⟨n, _, _, hread⟩ := hrefused hhollow
  exact ⟨t, C, v, n, ht, hC, hv, hread⟩

/-- Not everything that is written comes back. -/
theorem exists_refused_annexChart : ¬ ∀ (name : String) (c : StateConfig) (t : Tree) (C : NodeSet),
    Tree.build name c = .ok t → Legal t C →
      ∃ v, ofConfiguration t C = .ok v ∧ v.toConfiguration t = .ok C ∧ NamesTips t v C := by
  intro hall
  obtain ⟨t, C, ht, hC, n, hn, hhollow⟩ := exists_annex
  have w : t.WellFormed := wellFormed_of_build ht
  obtain ⟨v, hv, hread, _⟩ := hall "m" annexChart t C ht hC
  obtain ⟨_, _, _, hrefused⟩ :=
    toConfiguration_of_hollow w hv ((shows_iff_mem w hC).mpr hn) hhollow
  rw [hread] at hrefused
  cases hrefused

end StateValue

end Statechart
