/-
Which boxes hold a box.

A box names the box that holds it, and the way up from a box follows these names.  Nothing
keeps boxes from holding each other in a circle, and from there the way up never ends (`Ends`).
A way that ends meets no box twice, so it has at most as many steps as there are boxes, which
is the bound of `Graph.ancestors?`: that many steps tell whether the way ends at all
(`isSome_ancestors?_iff`).  So an overlay can expand ids exactly when the way up from each
known one ends (`isSome_expand?_iff`), and what it expands them to then has a description that
knows nothing of a bound (`mem_expand?`).
-/
import Mathlib.Data.List.Nodup
import Mathlib.Data.List.Perm.Subperm
import Mathlib.Data.Nat.Find
import Mathlib.Data.Nat.Init
import Mathlib.Logic.Relation
import Statechart.View.Overlay

namespace Statechart.View

namespace Graph

variable {g : Graph} {b p : Box} {n k : Nat}

/-- The second box is the first, or is met on the way up from it. -/
def HeldIn (g : Graph) : Box → Box → Prop :=
  Relation.ReflTransGen fun b p => g.parentBox? b = some p

/-- The known ids among some, and what holds them. -/
def Reaches (g : Graph) (ids : List String) (id : String) : Prop :=
  ∃ leaf ∈ ids, ∃ b p, g.box? leaf = some b ∧ g.HeldIn b p ∧ p.id = id

theorem id_of_box? {id : String} (h : g.box? id = some b) : b.id = id :=
  beq_iff_eq.mp (List.find?_some (p := fun b : Box => b.id == id) h)

theorem mem_of_box? {id : String} (h : g.box? id = some b) : b ∈ g.boxes :=
  List.mem_of_find?_eq_some h

theorem mem_of_parentBox? (h : g.parentBox? b = some p) : p ∈ g.boxes := by
  obtain ⟨_, _, hp⟩ := Option.bind_eq_some_iff.mp h
  exact mem_of_box? hp

/-- The box so many steps up. -/
def climb (g : Graph) : Nat → Box → Option Box
  | 0, b => some b
  | k + 1, b => (climb g k b).bind g.parentBox?

theorem climb_of_parent (h : g.parentBox? b = some p) : g.climb (k + 1) b = g.climb k p := by
  induction k with
  | zero => exact h
  | succ k ih => rw [climb, ih, climb]

theorem climb_of_no_parent (h : g.parentBox? b = none) : g.climb (k + 1) b = none := by
  induction k with
  | zero => exact h
  | succ k ih =>
      rw [climb, ih]
      rfl

theorem heldIn_iff_climb : g.HeldIn b p ↔ ∃ k, g.climb k b = some p := by
  constructor
  · intro h
    induction h with
    | refl => exact ⟨0, rfl⟩
    | tail _ hstep ih =>
        obtain ⟨k, hk⟩ := ih
        exact ⟨k + 1, by rw [climb, hk]; exact hstep⟩
  · rintro ⟨k, hk⟩
    induction k generalizing p with
    | zero =>
        cases hk
        exact .refl
    | succ k ih =>
        obtain ⟨q, hq, hp⟩ := Option.bind_eq_some_iff.mp hk
        exact .tail (ih hq) hp

/-- From where the way up has come to the same box twice it goes on alike. -/
theorem climb_add_congr {i j : Nat} (h : g.climb i b = g.climb j b) (r : Nat) :
    g.climb (i + r) b = g.climb (j + r) b := by
  induction r with
  | zero => exact h
  | succ r ih => rw [← Nat.add_assoc, ← Nat.add_assoc, climb, climb, ih]

theorem mem_of_climb (h : g.climb (k + 1) b = some p) : p ∈ g.boxes := by
  obtain ⟨_, _, hp⟩ := Option.bind_eq_some_iff.mp h
  exact mem_of_parentBox? hp

/-- A way up goes on from every place on it. -/
theorem exists_climb_of_le (h : g.climb k b = some p) {i : Nat} (hi : i ≤ k) :
    ∃ q, g.climb i b = some q := by
  induction k generalizing p with
  | zero =>
      obtain rfl := Nat.le_zero.mp hi
      exact ⟨p, h⟩
  | succ k ih =>
      rcases Nat.lt_or_eq_of_le hi with hlt | rfl
      · obtain ⟨q, hq, _⟩ := Option.bind_eq_some_iff.mp h
        exact ih hq (Nat.le_of_lt_succ hlt)
      · exact ⟨p, h⟩

/-- A way up with more steps than there are boxes meets one of them twice. -/
theorem exists_climb_eq (h : g.climb k b = some p) (hlong : g.boxes.length < k) :
    ∃ i j, i < j ∧ j ≤ k ∧ g.climb i b = g.climb j b := by
  by_contra hnone
  push Not at hnone
  have hne {i j : Nat} (hi : i < k) (hj : j < k) (hij : i ≠ j) :
      g.climb (i + 1) b ≠ g.climb (j + 1) b := by
    rcases Nat.lt_or_gt_of_ne hij with hlt | hgt
    · exact hnone _ _ (Nat.succ_lt_succ hlt) hj
    · exact (hnone _ _ (Nat.succ_lt_succ hgt) hi).symm
  have hnodup : ((List.range k).map fun i => g.climb (i + 1) b).Nodup := by
    refine (List.nodup_map_iff_inj_on List.nodup_range).mpr fun i hi j hj hij => ?_
    by_contra hij'
    exact hne (List.mem_range.mp hi) (List.mem_range.mp hj) hij' hij
  have hsubset : ((List.range k).map fun i => g.climb (i + 1) b) ⊆ g.boxes.map some := by
    intro x hx
    obtain ⟨i, hi, rfl⟩ := List.mem_map.mp hx
    obtain ⟨q, hq⟩ := exists_climb_of_le h (List.mem_range.mp hi)
    exact List.mem_map.mpr ⟨q, mem_of_climb hq, hq.symm⟩
  have hlength := (hnodup.subperm hsubset).length_le
  rw [List.length_map, List.length_map, List.length_range] at hlength
  omega

/-! ### Ways up that end -/

/-- The way up from a box comes to one that nothing holds. -/
def Ends (g : Graph) (b : Box) : Prop :=
  ∃ k, g.climb k b = none

/-- The ways up from the known ids among some end. -/
def EndsFrom (g : Graph) (ids : List String) : Prop :=
  ∀ leaf ∈ ids, ∀ b, g.box? leaf = some b → g.Ends b

/-- **A way up that ends does so within as many steps as there are boxes.** -/
theorem ends_iff : g.Ends b ↔ g.climb (g.boxes.length + 1) b = none := by
  classical
  refine ⟨fun hends => ?_, fun h => ⟨_, h⟩⟩
  by_contra hlong
  obtain ⟨p, hp⟩ := Option.ne_none_iff_exists'.mp hlong
  obtain ⟨i, j, hij, hj, heq⟩ := exists_climb_eq hp (Nat.lt_succ_self _)
  have hlast : g.climb (Nat.find hends) b = none := Nat.find_spec hends
  -- the way goes on after `j` steps as after `i`, so its end would come earlier
  have hjlast : j ≤ Nat.find hends := by
    by_contra hlt
    obtain ⟨q, hq⟩ := exists_climb_of_le hp (Nat.le_trans (Nat.le_of_not_le hlt) hj)
    rw [hlast] at hq
    cases hq
  have hearlier := climb_add_congr heq (Nat.find hends - j)
  rw [Nat.add_sub_cancel' hjlast, hlast] at hearlier
  exact Nat.find_min hends (by omega) hearlier

theorem ends_of_parent (h : g.parentBox? b = some p) (hp : g.Ends p) : g.Ends b := by
  obtain ⟨k, hk⟩ := hp
  exact ⟨k + 1, (climb_of_parent h).trans hk⟩

/-- Where something gets smaller with each step up, every way up ends. -/
theorem ends_of_decreasing (size : Box → Nat)
    (hless : ∀ b ∈ g.boxes, ∀ p, g.parentBox? b = some p → size p < size b)
    (hb : b ∈ g.boxes) : g.Ends b := by
  induction hsize : size b using Nat.strong_induction_on generalizing b with
  | _ n ih =>
      cases hp : g.parentBox? b with
      | none => exact ⟨1, hp⟩
      | some p =>
          exact ends_of_parent hp (ih _ (hsize ▸ hless b hb p hp) (mem_of_parentBox? hp) rfl)

/-! ### The boxes that are met -/

variable {l : List Box}

/-- The boxes above a box stand in the order in which they are met. -/
theorem getElem?_holders? (h : g.holders? n b = some l) (k : Nat) :
    l[k]? = g.climb (k + 1) b := by
  induction n generalizing b l k with
  | zero =>
      unfold holders? at h
      split at h
      · cases h
      · rename_i hp
        cases h
        exact (climb_of_no_parent (Option.not_isSome_iff_eq_none.mp hp)).symm
  | succ n ih =>
      unfold holders? at h
      split at h
      · rename_i p hp
        obtain ⟨above, habove, rfl⟩ := Option.map_eq_some_iff.mp h
        rw [climb_of_parent hp]
        cases k with
        | zero => rfl
        | succ k => exact ih habove k
      · rename_i hp
        cases h
        exact (climb_of_no_parent hp).symm

theorem isSome_holders?_iff : (g.holders? n b).isSome ↔ g.climb (n + 1) b = none := by
  induction n generalizing b with
  | zero =>
      unfold holders?
      cases hp : g.parentBox? b with
      | none => simp [climb_of_no_parent hp]
      | some p =>
          have hsome : g.climb 1 b ≠ none := by simp [climb, hp]
          simp [hsome]
  | succ n ih =>
      unfold holders?
      cases hp : g.parentBox? b with
      | none => simp [climb_of_no_parent hp]
      | some p => simp [climb_of_parent hp, ih]

/-- What holds a box, with the box itself, is what it is held in. -/
theorem heldIn_iff (h : g.holders? n b = some l) : g.HeldIn b p ↔ p = b ∨ p ∈ l := by
  rw [heldIn_iff_climb, List.mem_iff_getElem?]
  simp only [getElem?_holders? h]
  constructor
  · rintro ⟨k, hk⟩
    cases k with
    | zero => exact Or.inl (Option.some.inj hk).symm
    | succ k => exact Or.inr ⟨k, hk⟩
  · rintro (rfl | ⟨k, hk⟩)
    · exact ⟨0, rfl⟩
    · exact ⟨k + 1, hk⟩

/-- **The boxes above an id are known exactly if the way up from it ends.** -/
theorem isSome_ancestors?_iff {id : String} :
    (g.ancestors? id).isSome ↔ ∀ b, g.box? id = some b → g.Ends b := by
  unfold ancestors?
  cases hb : g.box? id with
  | none => simp
  | some b => simp [isSome_holders?_iff, ends_iff]

end Graph

namespace Overlay

variable {o : Overlay} {reached reached' : SortedSet String} {leaf id : String}
  {ids : List String}

theorem isSome_addReached?_iff :
    (o.addReached? reached leaf).isSome ↔ o.graph.EndsFrom [leaf] := by
  simp only [Graph.EndsFrom, List.mem_singleton, forall_eq, ← Graph.isSome_ancestors?_iff]
  unfold addReached? Graph.ancestors?
  cases o.graph.box? leaf <;> simp

/-- One id adds itself, if it is known, and what holds it. -/
theorem mem_addReached? (h : o.addReached? reached leaf = some reached') :
    id ∈ reached' ↔ id ∈ reached ∨ o.graph.Reaches [leaf] id := by
  unfold addReached? Graph.ancestors? at h
  cases hb : o.graph.box? leaf with
  | none =>
      rw [hb] at h
      cases h
      simp [Graph.Reaches, hb]
  | some b =>
      rw [hb] at h
      obtain ⟨held, hheld, rfl⟩ := Option.map_eq_some_iff.mp h
      have hreach : o.graph.Reaches [leaf] id ↔ leaf = id ∨ ∃ p ∈ held, p.id = id := by
        simp [Graph.Reaches, hb, Graph.heldIn_iff hheld, or_and_right, exists_or,
          Graph.id_of_box? hb]
      rw [hreach, SortedSet.mem_insertMany, List.mem_cons, List.mem_map, eq_comm (a := id)]

theorem isSome_foldlM_addReached?_iff :
    (ids.foldlM o.addReached? reached).isSome ↔ o.graph.EndsFrom ids := by
  induction ids generalizing reached with
  | nil => simp [Graph.EndsFrom]
  | cons leaf rest ih =>
      have hsplit : o.graph.EndsFrom (leaf :: rest) ↔
          o.graph.EndsFrom [leaf] ∧ o.graph.EndsFrom rest := by simp [Graph.EndsFrom]
      have hfirst : (o.addReached? reached leaf).isSome ↔ o.graph.EndsFrom [leaf] :=
        isSome_addReached?_iff
      rw [hsplit, ← hfirst, List.foldlM_cons]
      cases o.addReached? reached leaf with
      | none => simp
      | some next => simp [ih]

theorem mem_foldlM_addReached? (h : ids.foldlM o.addReached? reached = some reached') :
    id ∈ reached' ↔ id ∈ reached ∨ o.graph.Reaches ids id := by
  induction ids generalizing reached with
  | nil =>
      cases h
      simp [Graph.Reaches]
  | cons leaf rest ih =>
      rw [List.foldlM_cons] at h
      obtain ⟨next, hnext, hrest⟩ := Option.bind_eq_some_iff.mp h
      have hsplit : o.graph.Reaches (leaf :: rest) id ↔
          o.graph.Reaches [leaf] id ∨ o.graph.Reaches rest id := by simp [Graph.Reaches]
      rw [ih hrest, mem_addReached? hnext, hsplit, or_assoc]

/-- **Ids can be expanded exactly if the ways up from the known among them end.** -/
theorem isSome_expand?_iff : (o.expand? ids).isSome ↔ o.graph.EndsFrom ids :=
  isSome_foldlM_addReached?_iff

/-- **Ids are expanded to the known among them and what holds those.** -/
theorem mem_expand? (h : o.expand? ids = some reached) :
    id ∈ reached ↔ o.graph.Reaches ids id := by
  rw [mem_foldlM_addReached? h]
  simp

end Overlay

end Statechart.View
