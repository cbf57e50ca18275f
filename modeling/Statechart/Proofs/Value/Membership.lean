/-
What it means that a value contains a path.

`StateValue.contains` knows no tree.  It lists the ids of the leaves, without the id of the root,
and asks whether one of them goes on from the path.  For the value of a legal configuration that
is to be active: the leaves that are listed are the ends of the configuration, what an id goes on
from are the ids of the nodes above (`continues_iff`), and above an end everything is active,
as below an active node there is an end.
-/
import Statechart.Proofs.Tree.Letters
import Statechart.Proofs.Value.RoundTrip

namespace Statechart

open Statechart.Tree Outcome

variable {t : Tree} {C : NodeSet} {n : Nat} {v : StateValue}

/-! ### The fronts of an id -/

/-- An id goes on from a front: it is the front, or has a dot behind it. -/
def Continues (front id : List Char) : Prop :=
  id = front ∨ ∃ rest, id = front ++ '.' :: rest

/-- What goes on from a longer front has that before what goes on from the shorter one. -/
theorem continues_behind_iff {top front id : List Char} :
    Continues (top ++ '.' :: front) id ↔ ∃ x, id = top ++ '.' :: x ∧ Continues front x := by
  constructor
  · rintro (rfl | ⟨rest, rfl⟩)
    · exact ⟨front, rfl, Or.inl rfl⟩
    · exact ⟨front ++ '.' :: rest, by simp, Or.inr ⟨rest, rfl⟩⟩
  · rintro ⟨x, rfl, rfl | ⟨rest, rfl⟩⟩
    · exact Or.inl rfl
    · exact Or.inr ⟨rest, by simp⟩

/-- An id goes on from the ids of the node and of the nodes above, and from nothing else. -/
theorem Tree.Lettered.continues_iff (w : t.Lettered) (hn : n < t.size) {front : List Char} :
    Continues front (t.node n).id.toList ↔ ∃ i, t.Within n i ∧ (t.node i).id.toList = front := by
  constructor
  · rintro (rfl | ⟨rest, hid⟩)
    · exact ⟨n, within_self, rfl⟩
    · obtain ⟨i, hi, hfront⟩ := w.exists_below_of_id hn hid
      exact ⟨i, hi.within, hfront⟩
  · rintro ⟨i, rfl | hbelow, rfl⟩
    · exact Or.inl rfl
    · exact Or.inr (w.exists_id_of_below hbelow)

namespace StateValue

theorem contains_iff {p : String} : v.contains p = true ↔
    ∃ x ∈ v.activeIds "", Continues (Text.trimBoth (· == '.') p.toList) x.toList := by
  unfold contains
  rw [List.any_eq_true]
  refine exists_congr fun x => ?_
  rw [SortedSet.mem_toList]
  refine and_congr_right fun _ => ?_
  split
  · rename_i hrest
    rw [Text.afterStart?_eq_some_iff, List.append_nil] at hrest
    exact iff_of_true rfl (Or.inl hrest)
  · rename_i c rest hrest
    rw [Text.afterStart?_eq_some_iff] at hrest
    simp [Continues, hrest, beq_iff_eq]
  · rename_i hrest
    refine iff_of_false Bool.false_ne_true ?_
    rintro (h | ⟨rest, h⟩)
    · rw [Text.afterStart?_eq_some_iff.mpr (h.trans (List.append_nil _).symm)] at hrest
      cases hrest
    · rw [Text.afterStart?_eq_some_iff.mpr h] at hrest
      cases hrest

/-! ### The leaves without the root -/

mutual

/-- What stands before the place of a value stands before all its leaves.  The place has to have
a name: below nothing a key is joined to nothing, and has no dot before it. -/
theorem leafIds_behind {top : String} : ∀ (v : StateValue) {base : String}, base ≠ "" →
    leafIds (top ++ "." ++ base) v = (leafIds base v).map (top ++ "." ++ ·)
  | .leaf key, base, hbase => by
      rw [leafIds, leafIds, join_eq hbase, join_eq (by simp), List.map_singleton]
      simp only [String.append_assoc]
  | .branch [], base, _ => rfl
  | .branch (entry :: rest), base, hbase => by
      rw [leafIds, leafIds, leafIdsOf_behind (entry :: rest) hbase]

theorem leafIdsOf_behind {top : String} : ∀ (l : List (String × StateValue)) {base : String},
    base ≠ "" → leafIdsOf (top ++ "." ++ base) l = (leafIdsOf base l).map (top ++ "." ++ ·)
  | [], _, _ => rfl
  | (key, value) :: rest, base, hbase => by
      have hplace : top ++ "." ++ base ++ "." ++ key = top ++ "." ++ (base ++ "." ++ key) := by
        simp only [String.append_assoc]
      rw [leafIdsOf, leafIdsOf, join_eq hbase, join_eq (by simp), hplace,
        leafIds_behind value (by simp), leafIdsOf_behind rest hbase, List.map_append]

end

/-- Listed from nowhere the leaves have their ids without that of the root. -/
theorem mem_leafIds_empty (w : t.Lettered) (hv : ofConfiguration t C = .ok v) {x : String}
    (hx : x ≠ "") :
    x ∈ leafIds "" v ↔ (t.node Tree.root).id ++ "." ++ x ∈ leafIds (t.node Tree.root).id v := by
  have hw : t.WellFormed := w.toWellFormed
  by_cases hends : Ends t Tree.root
  · rw [leafIds_of_ends hends hv, leafIds_of_ends hends hv, List.mem_singleton,
      List.mem_singleton]
    refine iff_of_false hx fun h => w.dot_root ?_
    rw [← h]
    simp
  · rw [mem_leafIds_step hw hends hv, mem_leafIds_step hw hends hv]
    refine exists_congr fun c => and_congr_right fun hstep => exists_congr fun below =>
      and_congr_right fun _ => ?_
    have hkey : (t.node c).key ≠ "" := (w.key c (lt_size_of_parent (hstep.parent hw))).ne
    rw [join_eq (hw.id_ne Tree.root t.root_lt_size), leafIds_behind below hkey]
    simp [join]

/-- The leaves of a legal configuration by their nodes. -/
theorem mem_activeIds_empty (w : t.Lettered) (hC : Legal t C) (hv : ofConfiguration t C = .ok v)
    {x : String} (hx : x ≠ "") : x ∈ v.activeIds "" ↔
      ∃ n ∈ C, Ends t n ∧
        (t.node n).id.toList = (t.node Tree.root).id.toList ++ '.' :: x.toList := by
  have hw : t.WellFormed := w.toWellFormed
  rw [activeIds, SortedSet.mem_ofList, mem_leafIds_empty w hv hx,
    mem_leafIds_iff hw t.root_lt_size hv]
  refine exists_congr fun n => ?_
  rw [shows_iff_mem hw hC, ← String.toList_inj]
  simp

/-- A leaf goes on from a path exactly when its node has an id that does. -/
theorem exists_leaf_iff_of_legal (w : t.Lettered) (hC : Legal t C)
    (hv : ofConfiguration t C = .ok v) {path : List Char} (hpath : path ≠ []) :
    (∃ x ∈ v.activeIds "", Continues path x.toList) ↔ ∃ n ∈ C, Ends t n ∧
      Continues ((t.node Tree.root).id.toList ++ '.' :: path) (t.node n).id.toList := by
  have hne : ∀ x : String, Continues path x.toList → x ≠ "" := by
    rintro x (h | ⟨rest, h⟩) rfl
    · exact hpath h.symm
    · simp at h
  simp only [continues_behind_iff]
  constructor
  · rintro ⟨x, hx, hcont⟩
    obtain ⟨n, hn, hends, hid⟩ := (mem_activeIds_empty w hC hv (hne x hcont)).mp hx
    exact ⟨n, hn, hends, x.toList, hid, hcont⟩
  · rintro ⟨n, hn, hends, x, hid, hcont⟩
    rw [← String.toList_ofList (l := x)] at hid hcont
    exact ⟨String.ofList x, (mem_activeIds_empty w hC hv (hne _ hcont)).mpr ⟨n, hn, hends, hid⟩,
      hcont⟩

/-- The active nodes are those that an active end stands at or below. -/
theorem exists_end_iff_of_legal (w : t.WellFormed) (hC : Legal t C) {P : Nat → Prop} :
    (∃ n ∈ C, Ends t n ∧ ∃ i, t.Within n i ∧ P i) ↔ ∃ i ∈ C, P i := by
  obtain ⟨v, hv⟩ := exists_ofConfiguration w hC
  have hwritten := (exists_ofNode_iff w).mp ⟨v, hv⟩
  have hends : ∀ i, i ∈ C ↔ ∃ n ∈ C, Ends t n ∧ t.Within n i := fun i => by
    simpa only [shows_iff_mem w hC] using shows_iff_within_end w hwritten (i := i)
  constructor
  · rintro ⟨n, hn, -, i, hi, hP⟩
    exact ⟨i, hC.mem_of_within hn hi, hP⟩
  · rintro ⟨i, hi, hP⟩
    obtain ⟨n, hn, hend, hw⟩ := (hends i).mp hi
    exact ⟨n, hn, hend, i, hw, hP⟩

/-- **What is contained is what is active.**  Of every legal configuration of a tree that loads a
value is written, and it contains a path exactly when the path, without the dots at its ends, is
the id of an active node below the root, without the id of the root. -/
theorem contains_iff_of_legal {name : String} {c : StateConfig} (h : Tree.build name c = .ok t)
    (hC : Legal t C) : ∃ v, ofConfiguration t C = .ok v ∧ ∀ p : String,
      Text.trimBoth (· == '.') p.toList ≠ [] → (v.contains p = true ↔
        ∃ n ∈ C, n ≠ Tree.root ∧ (t.node n).id =
          (t.node Tree.root).id ++ "." ++ String.ofList (Text.trimBoth (· == '.') p.toList)) := by
  have w : t.Lettered := lettered_of_build h
  obtain ⟨v, hv⟩ := exists_ofConfiguration w.toWellFormed hC
  refine ⟨v, hv, fun p hp => ?_⟩
  generalize hpath : Text.trimBoth (· == '.') p.toList = path at hp
  calc v.contains p = true
      ↔ ∃ x ∈ v.activeIds "", Continues path x.toList := by rw [contains_iff, hpath]
    _ ↔ ∃ n ∈ C, Ends t n ∧
          Continues ((t.node Tree.root).id.toList ++ '.' :: path) (t.node n).id.toList :=
        exists_leaf_iff_of_legal w hC hv hp
    _ ↔ ∃ n ∈ C, Ends t n ∧ ∃ i, t.Within n i ∧
          (t.node i).id.toList = (t.node Tree.root).id.toList ++ '.' :: path :=
        exists_congr fun n => and_congr_right fun hn => and_congr_right fun _ =>
          w.continues_iff (hC.inTree n hn)
    _ ↔ ∃ i ∈ C, (t.node i).id.toList = (t.node Tree.root).id.toList ++ '.' :: path :=
        exists_end_iff_of_legal w.toWellFormed hC
    _ ↔ ∃ n ∈ C, n ≠ Tree.root ∧
          (t.node n).id = (t.node Tree.root).id ++ "." ++ String.ofList path := by
        refine exists_congr fun n => and_congr_right fun _ => ?_
        rw [← String.toList_inj]
        simp only [String.toList_append, String.toList_ofList, List.append_assoc]
        refine ⟨fun hid => ⟨?_, hid⟩, And.right⟩
        rintro rfl
        exact w.dot_root (by rw [hid]; simp)

/-- In the annex a parallel node without regions is contained, and the state beside the active one
is not. -/
theorem contains_iff_of_legal_annexChart : ∃ t C v, Tree.build "m" annexChart = .ok t ∧
    Legal t C ∧ ofConfiguration t C = .ok v ∧ v.contains ".b" = true ∧
      v.contains "a.x" = false := by
  obtain ⟨t, ht, h⟩ := exists_of_run (x := Tree.build "m" annexChart)
    (p := fun t => isLegal t (SortedSet.ofList [0, 1, 3, 4]) &&
      decide ([0, 1, 3, 4].map (fun n => (t.node n).id) = ["m", "m.a", "m.a.y", "m.b"]))
    (by decide +kernel)
  obtain ⟨hlegal, hids⟩ := Bool.and_eq_true_iff.mp h
  have hids := of_decide_eq_true hids
  obtain ⟨hroot, -, -, hb⟩ : (t.node Tree.root).id = "m" ∧ (t.node 1).id = "m.a" ∧
      (t.node 3).id = "m.a.y" ∧ (t.node 4).id = "m.b" := by simpa [Tree.root] using hids
  have hC := (isLegal_iff (wellFormed_of_build ht)).mp hlegal
  obtain ⟨v, hv, hcontains⟩ := contains_iff_of_legal ht hC
  refine ⟨t, _, v, ht, hC, hv, ?_, Bool.eq_false_iff.mpr fun htrue => ?_⟩
  · refine (hcontains ".b" (by decide)).mpr ⟨4, SortedSet.mem_ofList.mpr (by simp), by decide, ?_⟩
    rw [hroot, hb]
    rfl
  · obtain ⟨n, hn, -, hid⟩ := (hcontains "a.x" (by decide)).mp htrue
    have hmem := List.mem_map_of_mem (f := fun n => (t.node n).id) (SortedSet.mem_ofList.mp hn)
    rw [hids, hid, hroot] at hmem
    revert hmem
    decide

end StateValue

end Statechart
