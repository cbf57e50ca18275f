/-
The active markers are the configuration.

What is active is a set of nodes, and the view is only given the ids of the leaves that a
state value lists.  It marks these and the boxes that hold them, by a walk over ids.  Where
boxes have different ids the walk meets the boxes of the nodes above a leaf and no others
(`exists_within_of_heldIn`).  A legal configuration holds whatever stands above one of its
nodes, and every node of it stands above a leaf that is listed, so that exactly its nodes are
marked, whatever was marked before (`marked_iff_of_legal`).
-/
import Statechart.Proofs.Value.RoundTrip
import Statechart.Proofs.View.Highlight

namespace Statechart.View

open Statechart.Tree Outcome

namespace Graph

variable {t : Tree} {b : Box} {i n : Nat}

/-- Where boxes have different ids, the id of a node finds its box. -/
theorem box?_of_nodup (hnodup : ((ofTree t).boxes.map Box.id).Nodup) (hn : n < t.size) :
    (ofTree t).box? (t.node n).id = some (nodeBox t (t.node n)) := by
  have hmem : nodeBox t (t.node n) ∈ (ofTree t).boxes := by
    rw [boxes_ofTree]
    exact List.mem_flatMap.mpr ⟨n, List.mem_range.mpr hn, List.mem_cons_self ..⟩
  obtain ⟨b, hb⟩ := exists_box hn
  rw [hb, List.inj_on_of_nodup_map hnodup (mem_of_box? hb) hmem (id_of_box? hb)]

/-- Where boxes have different ids, the box of a node is held by those of the nodes above it
alone. -/
theorem exists_within_of_heldIn (hnodup : ((ofTree t).boxes.map Box.id).Nodup) (hn : n < t.size)
    (h : (ofTree t).HeldIn (nodeBox t (t.node n)) b) :
    ∃ a, a < t.size ∧ t.Within n a ∧ b = nodeBox t (t.node a) := by
  induction h with
  | refl => exact ⟨n, hn, within_self, rfl⟩
  | tail _ hparent ih =>
      obtain ⟨a, ha, hwithin, rfl⟩ := ih
      cases hp : t.parent a with
      | none =>
          have hnone : (t.node a).parent = none := hp
          rw [parentBox?, nodeBox, hnone] at hparent
          cases hparent
      | some p =>
          have hpsize := Nat.lt_trans (lt_of_parent hp) ha
          rw [parentBox?_nodeBox hp, box?_of_nodup hnodup hpsize] at hparent
          exact ⟨p, hpsize, hwithin.trans (below_of_parent hp).within, (Option.some.inj hparent).symm⟩

/-- **Where boxes have different ids, what is reached from the leaves of the value of a legal
configuration are its nodes.** -/
theorem reaches_activeIds_iff (w : t.Lettered) {C : NodeSet} {v : StateValue} {id : String}
    (hnodup : ((ofTree t).boxes.map Box.id).Nodup) (hC : Legal t C)
    (hv : StateValue.ofConfiguration t C = .ok v) :
    (ofTree t).Reaches (v.activeIds (t.node root).id).toList id ↔ ∃ n ∈ C, (t.node n).id = id := by
  constructor
  · rintro ⟨leaf, hleaf, b, b', hb, hheld, rfl⟩
    obtain ⟨n, hn, _, rfl⟩ := (StateValue.mem_activeIds_of_legal w.toWellFormed hC hv _).mp
      (SortedSet.mem_toList.mp hleaf)
    rw [box?_of_nodup hnodup (hC.inTree n hn)] at hb
    cases hb
    obtain ⟨a, _, hwithin, rfl⟩ := exists_within_of_heldIn hnodup (hC.inTree n hn) hheld
    exact ⟨a, hC.mem_of_within hn hwithin, rfl⟩
  · rintro ⟨n, hn, rfl⟩
    exact reaches_shown w hv ((shows_iff_mem w.toWellFormed hC).mpr hn)

end Graph

/-- **Syncing what is active with the value of a legal configuration leaves the active marker on
the nodes of the configuration**, whatever was marked before, if boxes have different ids. -/
theorem marked_iff_of_legal {m : Machine} {chart : StateConfig} {source : Json}
    (hload : Definition.ofConfig chart source = .ok m.definition)
    (hnodup : ((Graph.ofTree m.tree).boxes.map Box.id).Nodup) {C : NodeSet} (hC : Legal m.tree C) :
    ∃ v, StateValue.ofConfiguration m.tree C = .ok v ∧
      ∀ o : Overlay, o.graph = Graph.ofTree m.tree → ∀ id,
        (o.syncActive (v.activeIds m.id).toList).1.has id .active = true ↔
          ∃ n ∈ C, (m.tree.node n).id = id := by
  have w : m.tree.Lettered := lettered_of_build (Definition.build_of_ofConfig hload)
  have hid : m.id = (m.tree.node root).id := (Machine.wellFormed_of_ofConfig hload).2.symm
  obtain ⟨v, hv⟩ := exists_ofConfiguration w.toWellFormed hC
  refine ⟨v, hv, fun o hgraph id => ?_⟩
  rw [Overlay.has_iff, carries_syncActive w hgraph, hid]
  exact Graph.reaches_activeIds_iff w hnodup hC hv

/-- A kitchen whose oven and lights are used at once, and a hall. -/
def houseChart : StateConfig :=
  { StateConfig.blank with
    id := some "house"
    initial := some "hall"
    states := [
      ("hall", StateConfig.blank),
      ("kitchen", { StateConfig.blank with
        type := some .parallel
        states := [
          ("oven", { StateConfig.blank with
            initial := some "cold"
            states := [("cold", StateConfig.blank), ("hot", StateConfig.blank)] }),
          ("lights", { StateConfig.blank with
            initial := some "off"
            states := [("off", StateConfig.blank), ("on", StateConfig.blank)] })] })] }

/-- With the hall marked before, the kitchen with a hot oven and its lights off is marked, and
the hall is not any more. -/
theorem marked_iff_of_legal_houseChart : ∃ (m : Machine) (C : NodeSet) (v : StateValue)
    (o : Overlay), Definition.ofConfig houseChart .null = .ok m.definition ∧ Legal m.tree C ∧
      StateValue.ofConfiguration m.tree C = .ok v ∧ o.graph = Graph.ofTree m.tree ∧
      o.has "house.hall" .active = true ∧
      (o.syncActive (v.activeIds m.id).toList).1.has "house.hall" .active = false ∧
      (o.syncActive (v.activeIds m.id).toList).1.has "house.kitchen.oven" .active = true := by
  obtain ⟨d, hd, h⟩ := exists_of_run (x := Definition.ofConfig houseChart .null)
    (p := fun d => isLegal d.tree (SortedSet.ofList [0, 2, 3, 5, 6, 7]) &&
      decide (((Graph.ofTree d.tree).boxes.map Box.id).Nodup) &&
      decide ((d.tree.node 3).id = "house.kitchen.oven" ∧
        ∀ n ∈ ([0, 2, 3, 5, 6, 7] : List Nat), (d.tree.node n).id ≠ "house.hall") &&
      ((Overlay.ofGraph (Graph.ofTree d.tree)).syncActive ["house.hall"]).1.has "house.hall"
        .active) (by decide +kernel)
  obtain ⟨h, hbefore⟩ := Bool.and_eq_true_iff.mp h
  obtain ⟨h, hids⟩ := Bool.and_eq_true_iff.mp h
  obtain ⟨hlegal, hnodup⟩ := Bool.and_eq_true_iff.mp h
  obtain ⟨hoven, hhall⟩ := of_decide_eq_true hids
  have hC := (isLegal_iff (Machine.wellFormed_of_ofConfig hd).1).mp hlegal
  obtain ⟨v, hv, hmarked⟩ := marked_iff_of_legal (m := .ofDefinition d) hd
    (of_decide_eq_true hnodup) hC
  have hgraph : ((Overlay.ofGraph (Graph.ofTree d.tree)).syncActive ["house.hall"]).1.graph =
      Graph.ofTree d.tree :=
    graph_syncActive (lettered_of_build (Definition.build_of_ofConfig hd)) rfl
  refine ⟨.ofDefinition d, _, v, _, hd, hC, hv, hgraph, hbefore, ?_, ?_⟩
  · refine Bool.eq_false_iff.mpr fun hstill => ?_
    obtain ⟨n, hn, hname⟩ := (hmarked _ hgraph _).mp hstill
    exact hhall n (SortedSet.mem_ofList.mp hn) hname
  · exact (hmarked _ hgraph _).mpr ⟨3, SortedSet.mem_ofList.mpr (by simp), hoven⟩

end Statechart.View
