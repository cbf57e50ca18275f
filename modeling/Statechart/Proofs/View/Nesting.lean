/-
What holds a box in the graph of a tree.

The box of a node is held by the boxes of the nodes above it.  The way up goes by ids, and
the id of a node may find a dot instead of its box (`markerId_eq_iff`).  Then the way makes
a turn over siblings, whose keys get shorter, and still comes to the parent, so that whatever
stands above a node is reached (`reaches_of_within`).  On the other hand nothing but nodes
that may be active is ever met, since only such have something in them (`exists_node_of_reaches`).
-/
import Statechart.Proofs.View.Holders
import Statechart.Proofs.View.Ids

namespace Statechart.View.Graph

open Statechart.Tree

variable {t : Tree} {b b' : Box} {i n p a : Nat} {ids : List String}

theorem box_cases (hb : b ∈ (ofTree t).boxes) : ∃ k, k < t.size ∧
    (b = nodeBox t (t.node k) ∨ pointedAt t (t.node k) ≠ [] ∧ b = markerBox (t.node k)) := by
  rw [boxes_ofTree] at hb
  obtain ⟨k, hk, hb⟩ := List.mem_flatMap.mp hb
  refine ⟨k, List.mem_range.mp hk, ?_⟩
  rcases List.mem_cons.mp hb with rfl | hb
  · exact Or.inl rfl
  · split at hb
    · exact absurd hb List.not_mem_nil
    · rename_i hpointed
      exact Or.inr ⟨mt List.isEmpty_iff.mpr hpointed, List.mem_singleton.mp hb⟩

/-- The id of a node finds a box. -/
theorem exists_box (hi : i < t.size) : ∃ b, (ofTree t).box? (t.node i).id = some b := by
  have hmem : nodeBox t (t.node i) ∈ (ofTree t).boxes := by
    rw [boxes_ofTree]
    exact List.mem_flatMap.mpr ⟨i, List.mem_range.mpr hi, List.mem_cons_self ..⟩
  cases h : (ofTree t).box? (t.node i).id with
  | some b => exact ⟨b, rfl⟩
  | none => exact absurd (beq_self_eq_true _) (List.find?_eq_none.mp h _ hmem)

theorem parentBox?_nodeBox (h : t.parent n = some p) :
    (ofTree t).parentBox? (nodeBox t (t.node n)) = (ofTree t).box? (t.node p).id := by
  have hparent : (t.node n).parent = some p := h
  rw [parentBox?, nodeBox, hparent]
  rfl

theorem parentBox?_markerBox :
    (ofTree t).parentBox? (markerBox (t.node n)) = (ofTree t).box? (t.node n).id := rfl

/-- The box that the id of a node finds is held by the one that the id of its parent finds. -/
theorem heldIn_parent (w : t.Lettered) (hp : t.parent n = some p)
    (hb : (ofTree t).box? (t.node n).id = some b) (hb' : (ofTree t).box? (t.node p).id = some b') :
    (ofTree t).HeldIn b b' := by
  induction hlength : (t.node n).key.length using Nat.strong_induction_on generalizing n b with
  | _ length ih =>
      have hn := lt_size_of_parent hp
      obtain ⟨k, hk, rfl | ⟨_, rfl⟩⟩ := box_cases (mem_of_box? hb)
      · obtain rfl := w.eq_of_id hk hn (id_of_box? hb)
        exact .single ((parentBox?_nodeBox hp).trans hb')
      · obtain ⟨q, hkq, hnq, hkey⟩ := (markerId_eq_iff w hk hn).mp (id_of_box? hb)
        obtain rfl := Option.some.inj (hp.symm.trans hnq)
        obtain ⟨c, hc⟩ := exists_box hk
        have hshorter : (t.node k).key.length < length := by
          rw [← hlength, hkey, String.length_append]
          exact Nat.lt_add_of_pos_right (by decide)
        exact .head (parentBox?_markerBox.trans hc) (ih _ hshorter hkq hc rfl)

theorem heldIn_of_within (w : t.Lettered) (h : t.Within n a) (hn : n < t.size)
    (hb : (ofTree t).box? (t.node n).id = some b) (hb' : (ofTree t).box? (t.node a).id = some b') :
    (ofTree t).HeldIn b b' := by
  induction n using Nat.strong_induction_on generalizing b with
  | _ n ih =>
      rcases h with rfl | hbelow
      · cases hb.symm.trans hb'
        exact .refl
      · obtain ⟨p, hp, hw⟩ := below_iff.mp hbelow
        have hlt := lt_of_parent hp
        obtain ⟨c, hc⟩ := exists_box (Nat.lt_trans hlt hn)
        exact (heldIn_parent w hp hb hc).trans (ih p hlt hw (Nat.lt_trans hlt hn) hc)

/-- **What stands above a node is reached from its id.** -/
theorem reaches_of_within (w : t.Lettered) (h : t.Within n a) (hn : n < t.size)
    (hid : (t.node n).id ∈ ids) : (ofTree t).Reaches ids (t.node a).id := by
  have ha : a < t.size := by
    rcases h with rfl | hbelow
    · exact hn
    · exact Nat.lt_trans hbelow.lt hn
  obtain ⟨b, hb⟩ := exists_box hn
  obtain ⟨b', hb'⟩ := exists_box ha
  exact ⟨_, hid, b, b', hb, heldIn_of_within w h hn hb hb', id_of_box? hb'⟩

/-- The box that holds a box has a shorter id. -/
theorem id_length_lt (w : t.Lettered) (hb : b ∈ (ofTree t).boxes)
    (hparent : (ofTree t).parentBox? b = some b') : b'.id.length < b.id.length := by
  obtain ⟨k, hk, rfl | ⟨_, rfl⟩⟩ := box_cases hb
  · obtain ⟨id, hid, hbox⟩ := Option.bind_eq_some_iff.mp hparent
    obtain ⟨p, hp, rfl⟩ := Option.map_eq_some_iff.mp hid
    rw [id_of_box? hbox, nodeBox, w.id_child hp, String.length_append, String.length_append]
    exact Nat.lt_of_lt_of_le (Nat.lt_add_of_pos_right (by decide)) (Nat.le_add_right _ _)
  · rw [id_of_box? (parentBox?_markerBox ▸ hparent), markerBox, markerId, String.length_append]
    exact Nat.lt_add_of_pos_right (by decide)

/-- **In the graph of a tree every way up ends.** -/
theorem endsFrom_ofTree (w : t.Lettered) : (ofTree t).EndsFrom ids :=
  fun _ _ _ hb => ends_of_decreasing (fun b => b.id.length)
    (fun _ hb _ hparent => id_length_lt w hb hparent) (mem_of_box? hb)

theorem isHistory_of_pointedAt (h : pointedAt t (t.node n) ≠ []) : t.isHistory n = false := by
  unfold pointedAt at h
  rw [isHistory, kind]
  split at h
  · rename_i hkind
    rw [hkind]
    rfl
  · rename_i hkind
    rw [hkind]
    rfl
  · exact absurd rfl h

/-- A box has the id of a node that may be active. -/
def Stands (t : Tree) (b : Box) : Prop :=
  ∃ n, n < t.size ∧ t.isHistory n = false ∧ b.id = (t.node n).id

theorem Stands.parent (w : t.Lettered) (hb : b ∈ (ofTree t).boxes) (h : Stands t b)
    (hparent : (ofTree t).parentBox? b = some b') : Stands t b' := by
  obtain ⟨n, hn, _, hid⟩ := h
  obtain ⟨k, hk, rfl | ⟨hpointed, rfl⟩⟩ := box_cases hb
  · obtain rfl := w.eq_of_id hk hn hid
    obtain ⟨id, hid, hbox⟩ := Option.bind_eq_some_iff.mp hparent
    obtain ⟨p, hp, rfl⟩ := Option.map_eq_some_iff.mp hid
    exact ⟨p, Nat.lt_trans (lt_of_parent hp) hk, w.isHistory_of_child hp, id_of_box? hbox⟩
  · exact ⟨k, hk, isHistory_of_pointedAt hpointed, id_of_box? (parentBox?_markerBox ▸ hparent)⟩

/-- **What is reached from nodes that may be active are such nodes.** -/
theorem exists_node_of_reaches (w : t.Lettered) {id : String}
    (hids : ∀ leaf ∈ ids, ∃ n, n < t.size ∧ t.isHistory n = false ∧ leaf = (t.node n).id)
    (h : (ofTree t).Reaches ids id) :
    ∃ n, n < t.size ∧ t.isHistory n = false ∧ id = (t.node n).id := by
  obtain ⟨leaf, hleaf, b, b', hb, hheld, rfl⟩ := h
  have hstands : b' ∈ (ofTree t).boxes ∧ Stands t b' := by
    induction hheld with
    | refl =>
        refine ⟨mem_of_box? hb, ?_⟩
        rw [Stands, id_of_box? hb]
        exact hids leaf hleaf
    | tail _ hparent ih =>
        exact ⟨mem_of_parentBox? hparent, ih.2.parent w ih.1 hparent⟩
  exact hstands.2

end Statechart.View.Graph
