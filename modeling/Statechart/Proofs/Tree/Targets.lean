/-
What the label of a target names.

A label is cut at its dots and walked down key by key, while the id of a node was joined from
the keys on the way to it.  No key holds a dot, so the two undo each other: keys lead from a
node exactly to the node whose id goes on with them (`descend_iff`).  The walk down takes the
first key off the label, and `exists_below_of_id` finds the node that this key leads to above
the one that the label spells.

A label that begins with `#` is not walked but looked up, among the ids of all nodes and the
ids that the definition gives.
-/
import Statechart.Proofs.Tree.Letters

namespace Statechart

open Outcome

namespace Tree

variable {t : Tree} {c d i : Nat}

/-! ### Walking down keys -/

namespace Lettered

/-- A key leads to the child whose id ends with it. -/
theorem child_iff (w : t.Lettered) (hi : i < t.size) {key : String} (hkey : '.' ∉ key.toList) :
    t.child i key = some c ↔ c < t.size ∧ (t.node c).id = (t.node i).id ++ "." ++ key := by
  constructor
  · intro h
    have hparent := w.mem_children.mp (List.mem_of_find?_eq_some h)
    have hfound : (t.node c).key = key :=
      beq_iff_eq.mp (List.find?_some (p := fun c => (t.node c).key == key) h)
    exact ⟨lt_size_of_parent hparent, hfound ▸ w.id_child hparent⟩
  · rintro ⟨hc, hid⟩
    have hlist : (t.node c).id.toList = (t.node i).id.toList ++ '.' :: key.toList := by
      simp [hid]
    obtain ⟨p, hp⟩ := w.exists_parent_of_id hc hlist
    rw [w.id_child_toList hp] at hlist
    obtain ⟨hfront, hback⟩ := append_sep_inj_right (w.key c hc).dot hkey hlist
    obtain rfl := w.eq_of_id (Nat.lt_trans (lt_of_parent hp) hc) hi (String.toList_inj.mp hfront)
    rw [← String.toList_inj.mp hback]
    exact w.child_key hp

theorem descend_cons {key : String} {rest : List String} :
    t.descend i (key :: rest) = (t.child i key).bind fun c => t.descend c rest := by
  rw [descend]
  cases t.child i key <;> rfl

/-- **Keys lead to the node whose id goes on with them.** -/
theorem descend_iff (w : t.Lettered) {names : List String} (hne : names ≠ [])
    (hdots : ∀ key ∈ names, '.' ∉ key.toList) (hi : i < t.size) :
    t.descend i names = some d ↔
      d < t.size ∧ (t.node d).id = (t.node i).id ++ "." ++ ".".intercalate names := by
  induction names generalizing i with
  | nil => exact absurd rfl hne
  | cons key rest ih =>
      have hkey := hdots key (List.mem_cons_self ..)
      rw [descend_cons, Option.bind_eq_some_iff]
      simp only [w.child_iff hi hkey]
      cases rest with
      | nil =>
          rw [String.intercalate_singleton]
          constructor
          · rintro ⟨c, hc, h⟩
            cases h
            exact hc
          · intro h
            exact ⟨d, h, rfl⟩
      | cons second rest =>
          have hrest := fun {c} (hc : c < t.size) => ih (List.cons_ne_nil second rest)
            (fun k hk => hdots k (List.mem_cons_of_mem _ hk)) hc
          rw [String.intercalate_cons_cons]
          constructor
          · rintro ⟨c, ⟨hc, hid⟩, h⟩
            obtain ⟨hd, hid'⟩ := (hrest hc).mp h
            exact ⟨hd, by rw [hid', hid]; simp only [String.append_assoc]⟩
          · rintro ⟨hd, hid⟩
            have hcut : (t.node d).id.toList = ((t.node i).id ++ "." ++ key).toList ++
                '.' :: (".".intercalate (second :: rest)).toList := by
              simp [hid]
            obtain ⟨n, hn, hfront⟩ := w.exists_below_of_id hd hcut
            have hlt := Nat.lt_trans hn.lt hd
            have hid' := String.toList_inj.mp hfront
            refine ⟨n, ⟨hlt, hid'⟩, (hrest hlt).mpr ⟨hd, ?_⟩⟩
            rw [hid, hid']
            simp only [String.append_assoc]

theorem descend_path_iff (w : t.Lettered) (hi : i < t.size) {path : String} :
    t.descend i (Text.path path) = some d ↔
      d < t.size ∧ (t.node d).id = (t.node i).id ++ "." ++ path := by
  rw [w.descend_iff Text.path_ne_nil (fun _ => Text.not_mem_of_mem_path) hi,
    Text.intercalate_path]

end Lettered

/-! ### The three sorts of labels -/

theorem resolveTarget_dot {path : String} :
    t.resolveTarget i ("." ++ path) = t.descend i (Text.path path) := by
  have hlist : ("." ++ path).toList = '.' :: path.toList := by simp
  rw [resolveTarget, hlist]
  exact congrArg (fun path => t.descend i (Text.path path)) String.ofList_toList

theorem resolveTarget_hash {id : String} : t.resolveTarget i ("#" ++ id) = t.lookup id := by
  have hlist : ("#" ++ id).toList = '#' :: id.toList := by simp
  rw [resolveTarget, hlist]
  exact congrArg t.lookup String.ofList_toList

theorem resolveTarget_plain {label : String} (hdot : label.toList.head? ≠ some '.')
    (hhash : label.toList.head? ≠ some '#') :
    t.resolveTarget i label = t.descend ((t.parent i).getD i) (Text.path label) := by
  unfold resolveTarget
  split
  · rename_i hlist
    exact absurd (by rw [hlist]; rfl) hhash
  · rename_i hlist
    exact absurd (by rw [hlist]; rfl) hdot
  · rfl

/-- What a label that is written at a node names, by what it spells. -/
structure LabelsSpell (t : Tree) (c : StateConfig) (i : Nat) : Prop where
  /-- A label that begins with a dot goes on behind the id of the node. -/
  below : ∀ (path : String) (d : Nat), t.resolveTarget i ("." ++ path) = some d ↔
    d < t.size ∧ (t.node d).id = (t.node i).id ++ "." ++ path
  /-- A plain label goes on behind the id of the parent; the root takes its place itself. -/
  beside : ∀ (label : String) (d : Nat),
    label.toList.head? ≠ some '.' → label.toList.head? ≠ some '#' →
      (t.resolveTarget i label = some d ↔
        d < t.size ∧ (t.node d).id = (t.node ((t.parent i).getD i)).id ++ "." ++ label)
  /-- A reference is the id of a node, or the one that the definition gives to its state. -/
  named : ∀ (id : String) (d : Nat), t.resolveTarget i ("#" ++ id) = some d ↔
    d < t.size ∧ (id = (t.node d).id ∨ ∃ s, c.below? (t.path d) = some s ∧ s.id = some id)

end Tree

namespace Definition

variable {c : StateConfig} {source : Json} {m : Definition} {i : Nat}

/-- A text finds the node that it is an id of, and the id that is given to the root is its
own. -/
theorem lookup_iff_of_ofConfig (h : ofConfig c source = .ok m) {text : String} :
    m.tree.lookup text = some i ↔ i < m.tree.size ∧ (text = (m.tree.node i).id ∨
      ∃ s, c.below? (m.tree.path i) = some s ∧ s.id = some text) := by
  have hbuild := build_of_ofConfig h
  rw [Tree.lookup_iff_of_build hbuild]
  refine and_congr_right fun _ => ⟨fun hname => hname.imp_right And.right, ?_⟩
  rintro (hid | ⟨s, hs, hgiven⟩)
  · exact Or.inl hid
  by_cases hroot : i = Tree.root
  · subst hroot
    have hparent := (Tree.wellFormed_of_build hbuild).root_parent
    rw [Tree.path_of_no_parent hparent] at hs
    cases hs
    have hname : nameOf c = text := by rw [nameOf, hgiven]; rfl
    exact Or.inl (by rw [Tree.root_id_of_build hbuild, hname])
  · exact Or.inr ⟨hroot, s, hs, hgiven⟩

/-- **Labels name what they spell.**  In a tree that loads, a label written at any node names a
node exactly when the id of that node is the label, put behind the id that it starts from, or
when the label refers to an id of that node. -/
theorem labels_spell (h : ofConfig c source = .ok m) (hi : i < m.tree.size) :
    m.tree.LabelsSpell c i := by
  have w := Tree.lettered_of_build (build_of_ofConfig h)
  refine ⟨fun path d => ?_, fun label d hdot hhash => ?_, fun id d => ?_⟩
  · rw [Tree.resolveTarget_dot, w.descend_path_iff hi]
  · have hstart : (m.tree.parent i).getD i < m.tree.size := by
      cases hp : m.tree.parent i with
      | none => exact hi
      | some p => exact Nat.lt_trans (Tree.lt_of_parent hp) hi
    rw [Tree.resolveTarget_plain hdot hhash, w.descend_path_iff hstart]
  · rw [Tree.resolveTarget_hash, lookup_iff_of_ofConfig h]

/-- A light with two ways of being red, one of which has an id of its own. -/
def signalChart : StateConfig :=
  { StateConfig.blank with
    id := some "light"
    initial := some "green"
    states := [
      ("green", StateConfig.blank),
      ("red", { StateConfig.blank with
        initial := some "walk"
        states := [
          ("walk", StateConfig.blank),
          ("stop", { StateConfig.blank with id := some "halt" })] })] }

/-- The light has a label of each sort for the same state, and one that names nothing. -/
theorem labels_spell_signalChart : ∃ m, ofConfig signalChart .null = .ok m ∧
    2 < m.tree.size ∧ m.tree.LabelsSpell signalChart 2 ∧
    m.tree.resolveTarget 2 ".stop" = some 4 ∧ m.tree.resolveTarget 2 "red.stop" = some 4 ∧
    m.tree.resolveTarget 2 "#halt" = some 4 ∧ m.tree.resolveTarget 2 "#light.red.stop" = some 4 ∧
    m.tree.resolveTarget 2 "stop" = none := by
  obtain ⟨m, hm, hrun⟩ := exists_of_run (x := ofConfig signalChart .null)
    (p := fun m => decide (2 < m.tree.size ∧
      m.tree.resolveTarget 2 ".stop" = some 4 ∧ m.tree.resolveTarget 2 "red.stop" = some 4 ∧
      m.tree.resolveTarget 2 "#halt" = some 4 ∧
      m.tree.resolveTarget 2 "#light.red.stop" = some 4 ∧
      m.tree.resolveTarget 2 "stop" = none)) (by decide +kernel)
  obtain ⟨hsize, hlabels⟩ := of_decide_eq_true hrun
  exact ⟨m, hm, hsize, labels_spell hm hsize, hlabels⟩

end Definition

end Statechart
