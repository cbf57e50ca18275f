/-
The texts in a tree that loads.

No key holds a dot, so an id is cut into the id of the parent and the own key in one way, and
wherever else it is cut at a dot, the front is the id of a node above.  No key holds the sign
that begins a reference, so no id does.  A candidate knows the node, the event and the place
it is written at, and no node lists an event twice, so these three tell candidates apart.
-/
import Mathlib.Data.List.Basic
import Statechart.Definition.Basic
import Statechart.Proofs.Tree.Faithful

namespace Statechart

open Outcome

/-! ### Texts with a separator -/

/-- A text is cut at the first separator in one way. -/
theorem append_sep_inj {sep : Char} {a b x y : List Char} (ha : sep ∉ a) (hb : sep ∉ b)
    (h : a ++ sep :: x = b ++ sep :: y) : a = b ∧ x = y := by
  induction a generalizing b with
  | nil =>
      cases b with
      | nil => exact ⟨rfl, List.tail_eq_of_cons_eq h⟩
      | cons c b =>
          cases List.head_eq_of_cons_eq h
          exact absurd (List.mem_cons_self ..) hb
  | cons c a ih =>
      cases b with
      | nil =>
          cases List.head_eq_of_cons_eq h
          exact absurd (List.mem_cons_self ..) ha
      | cons d b =>
          obtain ⟨rfl, htail⟩ := List.cons.inj h
          obtain ⟨rfl, rfl⟩ := ih (fun hc => ha (List.mem_cons_of_mem _ hc))
            (fun hc => hb (List.mem_cons_of_mem _ hc)) htail
          exact ⟨rfl, rfl⟩

/-- A text is cut at the last separator in one way. -/
theorem append_sep_inj_right {sep : Char} {a b x y : List Char} (hx : sep ∉ x) (hy : sep ∉ y)
    (h : a ++ sep :: x = b ++ sep :: y) : a = b ∧ x = y := by
  have hreverse : x.reverse ++ sep :: a.reverse = y.reverse ++ sep :: b.reverse := by
    simpa using congrArg List.reverse h
  obtain ⟨hxy, hab⟩ := append_sep_inj (by simpa using hx) (by simpa using hy) hreverse
  exact ⟨List.reverse_injective hab, List.reverse_injective hxy⟩

/-- The decimal text of a number is made of digits. -/
theorem isDigit_of_mem_repr {n : Nat} {c : Char} (h : c ∈ (Nat.repr n).toList) :
    c.isDigit = true := by
  rw [Nat.toList_repr] at h
  exact Nat.isDigit_of_mem_toDigits (by decide) (by decide) h

namespace Tree

variable {t : Tree} {i k n p : Nat}

/-- The nodes are what is read at their numbers. -/
theorem nodes_eq : t.nodes.toList = (List.range t.size).map t.node := by
  refine List.ext_getElem (by simp [size]) fun i hi _ => ?_
  rw [Array.length_toList] at hi
  rw [List.getElem_map, List.getElem_range, Array.getElem_toList, node, node?,
    Array.getElem?_eq_getElem hi]
  rfl

/-- What is known of the texts in a tree that loads. -/
structure Lettered (t : Tree) : Prop extends WellFormed t where
  key : ∀ i, i < t.size → IsKey (t.node i).key
  root_id : (t.node root).id = (t.node root).key
  /-- No node lists an event twice. -/
  events : ∀ i, (t.node i).events.Nodup
  /-- A candidate knows its node, its event and its place. -/
  candidate : ∀ {i place : Nat} {h : Handler} {a : Candidate}, h ∈ (t.node i).handlers →
    h.candidates[place]? = some a → a.source = i ∧ a.event = h.event ∧ a.index = place

theorem lettered_of_build {name : String} {c : StateConfig} (h : build name c = .ok t) :
    t.Lettered where
  toWellFormed := wellFormed_of_build h
  key i hi := isKey_of_build h hi
  root_id := by rw [root_id_of_build h, (root_key_of_build h).2]
  events i := by
    rcases t.node_cases i with ⟨hnode, -⟩ | ⟨-, -, hi⟩
    · rw [hnode]
      exact List.nodup_nil
    · obtain ⟨s, d, depth, hplaced⟩ := (exists_placed_of_build h).2 i hi
      exact hplaced.events
  candidate {i place handler a} hhandler ha := by
    obtain ⟨s, d, depth, -, hhandler⟩ := exists_placed_of_handler h hhandler
    obtain ⟨draft, -, rfl⟩ := List.mem_map.mp hhandler
    rw [List.getElem?_mapIdx] at ha
    obtain ⟨_, -, rfl⟩ := Option.map_eq_some_iff.mp ha
    exact ⟨rfl, rfl, rfl⟩

/-- No key holds a colon. -/
def Colonless (t : Tree) : Prop :=
  ∀ i, i < t.size → ':' ∉ (t.node i).key.toList

instance : Decidable t.Colonless :=
  inferInstanceAs (Decidable (∀ i, i < t.size → ':' ∉ (t.node i).key.toList))

namespace Lettered

/-- The id of the root holds no dot. -/
theorem dot_root (w : t.Lettered) : '.' ∉ (t.node root).id.toList := by
  rw [w.root_id]
  exact (w.key root t.nonempty).dot

/-- The id of a child is cut where its own key begins. -/
theorem id_child_toList (w : t.Lettered) (hp : t.parent n = some p) :
    (t.node n).id.toList = (t.node p).id.toList ++ '.' :: (t.node n).key.toList := by
  simp [w.id_child hp]

theorem hash_id (w : t.Lettered) : ∀ i, i < t.size → '#' ∉ (t.node i).id.toList := by
  intro i
  induction i using Nat.strong_induction_on with
  | _ i ih =>
      intro hi
      by_cases hroot : i = root
      · rw [hroot, w.root_id]
        exact (w.key root t.nonempty).hash
      · obtain ⟨p, hp⟩ := w.exists_parent i hi hroot
        have hlt := lt_of_parent hp
        simpa [w.id_child_toList hp, (w.key i hi).hash] using ih p hlt (Nat.lt_trans hlt hi)

/-- The id of a node stands at the front of the ids of all nodes below it. -/
theorem exists_id_of_below (w : t.Lettered) (h : t.Below n i) :
    ∃ rest, (t.node n).id.toList = (t.node i).id.toList ++ '.' :: rest := by
  induction n using Nat.strong_induction_on with
  | _ n ih =>
      obtain ⟨p, hp, hw⟩ := below_iff.mp h
      rw [w.id_child_toList hp]
      rcases hw with rfl | hb
      · exact ⟨_, rfl⟩
      · obtain ⟨rest, hrest⟩ := ih p (lt_of_parent hp) hb
        rw [hrest, List.append_assoc]
        exact ⟨_, rfl⟩

/-- An id with a dot in it is not that of the root. -/
theorem exists_parent_of_id (w : t.Lettered) (hn : n < t.size) {front rest : List Char}
    (h : (t.node n).id.toList = front ++ '.' :: rest) : ∃ p, t.parent n = some p := by
  refine w.exists_parent n hn ?_
  rintro rfl
  exact w.dot_root (by simp [h])

/-- **Wherever an id is cut at a dot, the front is the id of a node above.** -/
theorem exists_below_of_id (w : t.Lettered) (hn : n < t.size) {front rest : List Char}
    (h : (t.node n).id.toList = front ++ '.' :: rest) :
    ∃ i, t.Below n i ∧ (t.node i).id.toList = front := by
  induction n using Nat.strong_induction_on generalizing rest with
  | _ n ih =>
      obtain ⟨p, hp⟩ := w.exists_parent_of_id hn h
      have hlt := lt_of_parent hp
      -- the cut is where the own key begins, or in the id of the parent, but not in the key
      rw [w.id_child_toList hp, List.append_eq_append_iff] at h
      rcases h with ⟨between, rfl, hrest⟩ | ⟨between, hid, hrest⟩
      · cases between with
        | nil => exact ⟨p, below_of_parent hp, (List.append_nil _).symm⟩
        | cons c between =>
            refine absurd ?_ (w.key n hn).dot
            rw [List.tail_eq_of_cons_eq hrest]
            simp
      · cases between with
        | nil => exact ⟨p, below_of_parent hp, by rw [hid, List.append_nil]⟩
        | cons c between =>
            rw [← List.head_eq_of_cons_eq hrest] at hid
            obtain ⟨i, hi, hfront⟩ := ih p hlt (Nat.lt_trans hlt hn) hid
            exact ⟨i, (below_of_parent hp).trans hi, hfront⟩

/-- Where no key holds a colon, no id does. -/
theorem colon_id (w : t.Lettered) (hcolon : t.Colonless) :
    ∀ i, i < t.size → ':' ∉ (t.node i).id.toList := by
  intro i
  induction i using Nat.strong_induction_on with
  | _ i ih =>
      intro hi
      by_cases hroot : i = root
      · rw [hroot, w.root_id]
        exact hcolon root t.nonempty
      · obtain ⟨p, hp⟩ := w.exists_parent i hi hroot
        have hlt := lt_of_parent hp
        simpa [w.id_child_toList hp, hcolon i hi] using ih p hlt (Nat.lt_trans hlt hi)

end Lettered

end Tree

/-- A definition that loads has a tree that is built of it. -/
theorem Definition.build_of_ofConfig {d : Definition} {c : StateConfig} {source : Json}
    (h : Definition.ofConfig c source = .ok d) : Tree.build (nameOf c) c = .ok d.tree := by
  obtain ⟨_, _, h⟩ := bind_eq_ok.mp h
  obtain ⟨tree, htree, h⟩ := bind_eq_ok.mp h
  cases h
  exact htree

end Statechart
