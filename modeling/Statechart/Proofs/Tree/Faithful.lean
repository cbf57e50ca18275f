/-
What a tree owes to the definition that it was loaded from.

`WellFormed` speaks of the tree alone.  Here the definition comes in: every node stands for
the state that its keys lead down to, has a child for each of the states below that, in the
order in which these are written, and is found by the ids that are written for it.  With it
comes what the numbers say of the shape, since everything that is in order by number is in
order of the text: the nodes at and below one node are a stretch of numbers.

`Placed` is the thread that all of it hangs on.  It ties a number to a draft and to a state,
and one lemma, `Placed.child`, takes it one step down; the walk up to the root from any node
and the walk down along any keys are then inductions over that step.
-/
import Mathlib.Data.Nat.Init
import Statechart.Definition.Decode
import Statechart.Proofs.Tree.Drawn
import Statechart.Proofs.Tree.Loaded

namespace Statechart

open Outcome

/-- The state that some keys lead down to. -/
def StateConfig.below? : StateConfig → List String → Option StateConfig
  | c, [] => some c
  | c, key :: rest => (c.states.find? fun e => e.1 == key).bind fun e => e.2.below? rest

theorem StateConfig.below?_append {path rest : List String} :
    ∀ {c : StateConfig}, c.below? (path ++ rest) = (c.below? path).bind fun s => s.below? rest := by
  induction path with
  | nil => intro c; rfl
  | cons key path ih =>
      intro c
      rw [List.cons_append, below?, below?, Option.bind_assoc]
      simp only [ih]

namespace Tree

/-! ### The keys of a node -/

/-- The keys from the root down to a node, that of the root first. -/
def keys (t : Tree) (i : Nat) : List String :=
  ((i :: t.ancestors i).map fun j => (t.node j).key).reverse

/-- The keys that lead to a node from the root. -/
def path (t : Tree) (i : Nat) : List String := (t.keys i).tail

section

variable {t : Tree} {i p : Nat}

theorem keys_of_no_parent (h : t.parent i = none) : t.keys i = [(t.node i).key] := by
  rw [keys, ancestors_of_no_parent h]
  rfl

theorem keys_of_parent (h : t.parent i = some p) : t.keys i = t.keys p ++ [(t.node i).key] := by
  rw [keys, keys, ancestors_of_parent h, List.map_cons, List.reverse_cons]

theorem keys_ne : t.keys i ≠ [] := by
  unfold keys
  simp

theorem path_of_no_parent (h : t.parent i = none) : t.path i = [] := by
  rw [path, keys_of_no_parent h]
  rfl

theorem path_of_parent (h : t.parent i = some p) : t.path i = t.path p ++ [(t.node i).key] := by
  rw [path, path, keys_of_parent h, List.tail_append_of_ne_nil keys_ne]

end

end Tree

namespace Draft

variable {t : Tree} {i depth : Nat} {parent : Option Nat} {d : Draft}

/-! ### The stretch of a draft -/

/-- A draft in a list ends where the list ends, or before. -/
theorem starts_add_size_le : ∀ {ds : List Draft} {i k s : Nat} {b : Draft},
    (starts i ds)[k]? = some s → ds[k]? = some b → s + b.size ≤ i + sizes ds := by
  intro ds
  induction ds with
  | nil => intro i k s b _ hb; simp at hb
  | cons d rest ih =>
      intro i k s b hs hb
      rw [sizes]
      cases k with
      | zero =>
          cases hs
          cases hb
          omega
      | succ k =>
          rw [starts, List.getElem?_cons_succ] at hs
          rw [List.getElem?_cons_succ] at hb
          have := ih hs hb
          omega

/-- The nodes at and below the node of a draft are those in its stretch. -/
theorem Stands.within_iff (hchildren : ∀ {p c : Nat}, t.parent c = some p → c ∈ t.children p) :
    ∀ (n : Nat) {d : Draft} {i depth : Nat} {parent : Option Nat}, d.size = n →
      Stands t i parent depth d → ∀ j, t.Within j i ↔ i ≤ j ∧ j < i + d.size := by
  intro n
  induction n using Nat.strong_induction_on with
  | _ n ih =>
      intro d i depth parent hn h j
      have hsmall : ∀ {k : Nat} {b : Draft}, d.children[k]? = some b → b.size < n := by
        intro k b hb
        have := size_le_of_mem (List.mem_of_getElem? hb)
        rw [← hn, sizes_children d]
        omega
      have hpos := d.size_pos
      constructor
      · rintro (rfl | hbelow)
        · omega
        · obtain ⟨c, hc, hwithin⟩ := hbelow.exists_child
          obtain ⟨k, b, hb, hk, hstands⟩ := h.get_child (hchildren hc)
          have hrange := (ih b.size (hsmall hb) rfl hstands j).mp hwithin
          have hstart := (mem_starts (List.mem_of_getElem? hk)).1
          have hstop := starts_add_size_le hk hb
          rw [sizes_children]
          omega
      · rintro ⟨hij, hj⟩
        by_cases hji : j = i
        · exact Or.inl hji
        rw [sizes_children] at hj
        obtain ⟨k, s, b, hb, hs, hle, hlt⟩ :=
          exists_starts d.children (i + 1) j (by omega) (by omega)
        obtain ⟨s', hs', hstands⟩ := h.children.get hb
        rw [hs] at hs'
        cases hs'
        have hwithin := (ih b.size (hsmall hb) rfl hstands j).mpr ⟨hle, hlt⟩
        have hparent : t.parent s = some i := by
          rw [Tree.parent, hstands.head.2]
          rfl
        exact Or.inr (hwithin.below (Tree.below_of_parent hparent))

end Draft

/-! ### A node and its state -/

/-- An entry is found by its key in a list that has no key twice. -/
theorem find?_of_nodup_keys {α : Type} {l : List (String × α)} {e : String × α}
    (hnodup : (l.map Prod.fst).Nodup) (he : e ∈ l) : l.find? (fun x => x.1 == e.1) = some e := by
  induction l with
  | nil => exact absurd he List.not_mem_nil
  | cons first rest ih =>
      rw [List.map_cons, List.nodup_cons] at hnodup
      rcases List.mem_cons.mp he with rfl | he
      · exact List.find?_cons_of_pos (beq_self_eq_true _)
      · have hne : first.1 ≠ e.1 := fun heq =>
          hnodup.1 (heq ▸ List.mem_map.mpr ⟨e, he, rfl⟩)
        rw [List.find?_cons_of_neg (by simpa using hne)]
        exact ih hnodup.2 he

/-- The draft `d` of the state `s` stands at the number `i` of the tree, which keeps the keys
that lead to the state from the definition `c`. -/
structure Placed (t : Tree) (c : StateConfig) (i : Nat) (s : StateConfig) (d : Draft)
    (depth : Nat) : Prop where
  stands : Draft.Stands t i (t.parent i) depth d
  sound : Draft.Sound d
  drawn : Draft.Drawn (i == Tree.root) s d
  state : c.below? (t.path i) = some s

namespace Placed

variable {t : Tree} {c s : StateConfig} {i depth k : Nat} {d b : Draft}

theorem node_eq (h : Placed t c i s d depth) : t.node i = Draft.head i (t.parent i) depth d :=
  h.stands.head.2

theorem lt_size (h : Placed t c i s d depth) : i < t.size :=
  h.stands.head.1

/-- A draft below stands for the state at its place, at the child at its place. -/
theorem child (h : Placed t c i s d depth) (hb : d.children[k]? = some b) :
    ∃ j s', (t.children i)[k]? = some j ∧ t.parent j = some i ∧ (t.node j).key = b.key ∧
      s.states[k]? = some (b.key, s') ∧ Placed t c j s' b (depth + 1) := by
  obtain ⟨j, hj, hstands⟩ := h.stands.children.get hb
  obtain ⟨s', hs', hdrawn⟩ := h.drawn.exists_state hb
  have hparent : t.parent j = some i := by
    rw [Tree.parent, hstands.head.2]
    rfl
  have hkey : (t.node j).key = b.key := by
    rw [hstands.head.2]
    rfl
  have hroot : (j == Tree.root) = false := by
    rw [beq_eq_false_iff_ne]
    exact Nat.ne_of_gt (Nat.lt_of_le_of_lt (Nat.zero_le i) (Tree.lt_of_parent hparent))
  have hnodup : (s.states.map Prod.fst).Nodup := by
    rw [← h.drawn.head.keys]
    exact h.sound.head.keys
  refine ⟨j, s', ?_, hparent, hkey, hs', ?_, ?_, ?_, ?_⟩
  · rw [Tree.children, h.node_eq]
    exact hj
  · rwa [hparent]
  · exact h.sound.child b (List.mem_of_getElem? hb)
  · rwa [hroot]
  · rw [Tree.path_of_parent hparent, StateConfig.below?_append, h.state, Option.bind_some, hkey,
      StateConfig.below?, find?_of_nodup_keys hnodup (List.mem_of_getElem? hs')]
    rfl

/-- From a node, keys that lead to a state lead to its node. -/
theorem exists_below (h : Placed t c i s d depth) {path : List String} {s' : StateConfig}
    (hs' : s.below? path = some s') :
    ∃ j d' depth', t.path j = t.path i ++ path ∧ Placed t c j s' d' depth' := by
  induction path generalizing i s d depth with
  | nil =>
      cases hs'
      exact ⟨i, d, depth, (List.append_nil _).symm, h⟩
  | cons key rest ih =>
      rw [StateConfig.below?, Option.bind_eq_some_iff] at hs'
      obtain ⟨⟨key', s₁⟩, hfind, hs'⟩ := hs'
      obtain ⟨k, hk⟩ := List.mem_iff_getElem?.mp (List.mem_of_find?_eq_some hfind)
      have hkey : key' = key := by simpa using List.find?_some hfind
      obtain ⟨b, hb, hbkey, -⟩ := h.drawn.exists_draft hk
      obtain ⟨j, s₂, -, hparent, hjkey, hs₂, hplaced⟩ := h.child hb
      rw [hk] at hs₂
      cases hs₂
      obtain ⟨j', d', depth', hpath, hplaced'⟩ := ih hplaced hs'
      refine ⟨j', d', depth', ?_, hplaced'⟩
      rw [hpath, Tree.path_of_parent hparent, hjkey, hkey, List.append_assoc]
      rfl

end Placed

section

variable {d : Draft} {c : StateConfig} {i : Nat}

theorem placed_root (hsound : Draft.Sound d) (hdrawn : Draft.Drawn true c d) :
    Placed d.toTree c Tree.root c d 0 := by
  have hparent : d.toTree.parent Tree.root = none := by
    rw [Tree.parent, Tree.node_root_toTree]
    rfl
  refine ⟨?_, hsound, hdrawn, ?_⟩
  · rw [hparent]
    exact Draft.stands_toTree d
  · rw [Tree.path_of_no_parent hparent]
    rfl

/-- Every node stands for a state.  The way to it is found from its parent, which stands
before it. -/
theorem exists_placed (hsound : Draft.Sound d) (hdrawn : Draft.Drawn true c d) :
    i < d.toTree.size → ∃ s d' depth, Placed d.toTree c i s d' depth := by
  induction i using Nat.strong_induction_on with
  | _ i ih =>
      intro hi
      by_cases hroot : i = Tree.root
      · rw [hroot]
        exact ⟨c, d, 0, placed_root hsound hdrawn⟩
      · obtain ⟨p, hp⟩ := Tree.exists_parent_toTree hsound hi hroot
        have hlt := Tree.lt_of_parent hp
        obtain ⟨s, d', depth, hplaced⟩ := ih p hlt (Nat.lt_trans hlt hi)
        obtain ⟨k, b, hb, hk, -⟩ :=
          hplaced.stands.get_child ((Tree.mem_children_toTree hsound).mpr hp)
        obtain ⟨j, s', hj, -, -, -, hchild⟩ := hplaced.child hb
        rw [Tree.children, hplaced.node_eq] at hj
        cases hk.symm.trans hj
        exact ⟨s', b, depth + 1, hchild⟩

end

namespace Tree

/-! ### The tree of a definition -/

/-- What a node shows of the state that it stands for. -/
structure Shows (t : Tree) (i : Nat) (s : StateConfig) : Prop where
  kind : t.kind i = s.inferredKind
  /-- The root keeps no id besides its own. -/
  givenId : (t.node i).givenId = if i = root then none else s.id
  /-- Only a compound node keeps the child that it enters by itself. -/
  initial : (t.node i).initial = if t.kind i = .compound then s.initial else none
  entry : (t.node i).entry = s.entry
  exit : (t.node i).exit = s.exit
  /-- The children stand for the states below, in the order in which these are written. -/
  children : (t.children i).map (fun j => (t.node j).key) = s.states.map Prod.fst

/-- What holds of the tree of a definition, the root of which has the id `name`. -/
structure Renders (t : Tree) (name : String) (c : StateConfig) : Prop extends WellFormed t where
  /-- A node has the number of its place. -/
  index : ∀ i, i < t.size → (t.node i).index = i
  /-- A node stands behind its parent. -/
  parent_lt : ∀ {i p : Nat}, t.parent i = some p → p < i
  /-- The nodes at and below a node follow each other. -/
  stretch : ∀ i, i < t.size → ∃ stop, stop ≤ t.size ∧ ∀ j, t.Within j i ↔ i ≤ j ∧ j < stop
  /-- The children of a node are in order. -/
  ascending : ∀ p, (t.children p).Pairwise (· < ·)
  /-- Every node stands for the state that its keys lead to. -/
  state : ∀ i, i < t.size → ∃ s, c.below? (t.path i) = some s ∧ t.Shows i s
  /-- Every state has a node. -/
  exists_node : ∀ {path : List String} {s : StateConfig}, c.below? path = some s →
    ∃ i, i < t.size ∧ t.path i = path
  root_depth : (t.node root).depth = 0
  depth : ∀ {i p : Nat}, t.parent i = some p → (t.node i).depth = (t.node p).depth + 1
  root_key : (t.node root).key = name
  /-- An id is the keys from the root down, joined. -/
  id : ∀ i, i < t.size → (t.node i).id = ".".intercalate (t.keys i)
  key : ∀ i, i < t.size → IsKey (t.node i).key
  /-- No two nodes share an id. -/
  id_inj : ∀ i j, i < t.size → j < t.size → (t.node i).id = (t.node j).id → i = j
  /-- A node is found by its id and by the one that is written for it, and by nothing else. -/
  lookup_iff : ∀ {text : String} {i : Nat}, t.lookup text = some i ↔ i < t.size ∧
    (text = (t.node i).id ∨
      i ≠ root ∧ ∃ s, c.below? (t.path i) = some s ∧ s.id = some text)
  /-- No node lists an event twice. -/
  events : ∀ i, (t.node i).events.Nodup
  /-- A candidate is one of its node, and a target that it has names a node. -/
  candidate : ∀ {i : Nat} {h : Handler} {a : Candidate}, h ∈ (t.node i).handlers →
    a ∈ h.candidates → a.source = i ∧
      ∀ label, a.target = some label → ∃ x, x < t.size ∧ t.resolveTarget i label = some x

end Tree

namespace Placed

variable {t : Tree} {c s : StateConfig} {i depth : Nat} {d : Draft}

theorem shows (h : Placed t c i s d depth) : t.Shows i s := by
  refine ⟨?_, ?_, ?_, ?_, ?_, ?_⟩
  · rw [Tree.kind, h.node_eq]
    exact h.drawn.head.kind
  · rw [h.node_eq]
    have hgiven := h.drawn.head.givenId
    unfold Draft.givenIdOf at hgiven
    simp only [beq_iff_eq] at hgiven
    exact hgiven
  · rw [Tree.kind, h.node_eq]
    exact h.drawn.head.initial
  · rw [h.node_eq]
    exact h.drawn.head.entry
  · rw [h.node_eq]
    exact h.drawn.head.exit
  · rw [← h.drawn.head.keys]
    refine List.ext_getElem? fun k => ?_
    rw [List.getElem?_map, List.getElem?_map]
    cases hb : d.children[k]? with
    | none =>
        have hlength : (t.children i).length = d.children.length := by
          rw [Tree.children, h.node_eq]
          exact Draft.length_starts _ _
        rw [List.getElem?_eq_none_iff] at hb
        rw [List.getElem?_eq_none (by omega)]
        rfl
    | some b =>
        obtain ⟨j, -, hj, -, hkey, -⟩ := h.child hb
        rw [hj, Option.map_some, Option.map_some, hkey]

theorem events (h : Placed t c i s d depth) : (t.node i).events.Nodup := by
  have hevents : (t.node i).events = d.handlers.map DraftHandler.event := by
    rw [h.node_eq]
    show (Draft.handlersAt i d.handlers).map Handler.event = _
    rw [Draft.handlersAt, List.map_map]
    rfl
  rw [hevents]
  exact h.drawn.head.events

theorem isKey_child (h : Placed t c i s d depth) {j : Nat} (hj : j ∈ t.children i) :
    IsKey (t.node j).key := by
  obtain ⟨k, b, hb, -, hstands⟩ := h.stands.get_child hj
  rw [hstands.head.2]
  exact h.drawn.head.isKey b (List.mem_of_getElem? hb)

theorem depth_child (h : Placed t c i s d depth) {j : Nat} (hj : j ∈ t.children i) :
    (t.node j).depth = (t.node i).depth + 1 := by
  obtain ⟨_, _, -, -, hstands⟩ := h.stands.get_child hj
  rw [hstands.head.2, h.node_eq]
  rfl

theorem ascending (h : Placed t c i s d depth) : (t.children i).Pairwise (· < ·) := by
  rw [Tree.children, h.node_eq]
  exact Draft.pairwise_starts _ _

/-- What holds of the nodes from `i` on holds up to the end of the draft, and that is in the
tree. -/
theorem stretch (h : Placed t c i s d depth) (w : t.WellFormed) :
    ∃ stop, stop ≤ t.size ∧ ∀ j, t.Within j i ↔ i ≤ j ∧ j < stop := by
  have hwithin := Draft.Stands.within_iff w.mem_children.mpr d.size rfl h.stands
  refine ⟨i + d.size, ?_, hwithin⟩
  have hpos := d.size_pos
  -- the last node of the draft is in the tree, whether it is the node itself or below it
  have hlast : i + d.size - 1 < t.size := by
    rcases (hwithin (i + d.size - 1)).mpr ⟨by omega, by omega⟩ with heq | hbelow
    · rw [heq]
      exact h.lt_size
    · obtain ⟨p, hp, -⟩ := Tree.below_iff.mp hbelow
      exact Tree.lt_size_of_parent hp
  omega

end Placed

namespace Tree

variable {name : String} {c : StateConfig} {t : Tree}

/-- The handlers of a node are put down with the number of the node. -/
theorem source_of_handlersAt {i : Nat} {hs : List DraftHandler} {h : Handler} {a : Candidate}
    (hh : h ∈ Draft.handlersAt i hs) (ha : a ∈ h.candidates) : a.source = i := by
  obtain ⟨draft, -, rfl⟩ := List.mem_map.mp hh
  obtain ⟨k, -, rfl⟩ := List.mem_mapIdx.mp ha
  rfl

/-- The ids that are written are all different. -/
theorem nodup_names_of_build (h : build name c = .ok t) :
    (t.nodes.toList.flatMap namesOf).Nodup := by
  obtain ⟨-, d, seen, hcheck, rfl, -⟩ := exists_draft_of_build h
  exact nodup_names_toTree (Draft.sound_of_check hcheck).2.2

/-- The name of a tree that loads is a key, and the key of its root. -/
theorem root_key_of_build (h : build name c = .ok t) : IsKey name ∧ (t.node root).key = name := by
  have hkey : IsKey name := by
    unfold build at h
    obtain ⟨_, hkey, -⟩ := bind_eq_ok.mp h
    exact isKey_of_checkKey hkey
  refine ⟨hkey, ?_⟩
  obtain ⟨-, d, seen, hcheck, rfl, -⟩ := exists_draft_of_build h
  rw [node_root_toTree]
  exact (Draft.check_eq_ok true name name [] c d seen hcheck).key_eq

/-- Every node of a tree that loads has its state and its draft. -/
theorem exists_placed_of_build (h : build name c = .ok t) :
    (∃ d, Placed t c root c d 0) ∧ ∀ i, i < t.size → ∃ s d depth, Placed t c i s d depth := by
  obtain ⟨-, d, seen, hcheck, rfl, -⟩ := exists_draft_of_build h
  have hsound := (Draft.sound_of_check hcheck).1
  have hdrawn := Draft.drawn_of_check true name name [] c d seen hcheck
  exact ⟨⟨d, placed_root hsound hdrawn⟩, fun i hi => exists_placed hsound hdrawn hi⟩

theorem id_eq_keys (w : t.WellFormed) (hroot : (t.node root).id = (t.node root).key) {i : Nat} :
    i < t.size → (t.node i).id = ".".intercalate (t.keys i) := by
  induction i using Nat.strong_induction_on with
  | _ i ih =>
      intro hi
      by_cases hne : i = root
      · rw [hne, keys_of_no_parent w.root_parent, String.intercalate_singleton, hroot]
      · obtain ⟨p, hp⟩ := w.exists_parent i hi hne
        have hlt := lt_of_parent hp
        rw [w.id_child hp, keys_of_parent hp, ih p hlt (Nat.lt_trans hlt hi),
          String.intercalate_append_of_ne_nil keys_ne (List.cons_ne_nil _ _),
          String.intercalate_singleton]

theorem isKey_of_build (h : build name c = .ok t) {i : Nat} (hi : i < t.size) :
    IsKey (t.node i).key := by
  have w := wellFormed_of_build h
  by_cases hroot : i = root
  · rw [hroot, (root_key_of_build h).2]
    exact (root_key_of_build h).1
  · obtain ⟨p, hp⟩ := w.exists_parent i hi hroot
    obtain ⟨s, d, depth, hplaced⟩ :=
      (exists_placed_of_build h).2 p (Nat.lt_trans (lt_of_parent hp) hi)
    exact hplaced.isKey_child (w.mem_children.mpr hp)

/-- A text finds the node that it is an id of. -/
theorem lookup_iff_of_build (h : build name c = .ok t) {text : String} {i : Nat} :
    t.lookup text = some i ↔ i < t.size ∧ (text = (t.node i).id ∨
      i ≠ root ∧ ∃ s, c.below? (t.path i) = some s ∧ s.id = some text) := by
  have hgiven : i < t.size → ((t.node i).givenId = some text ↔
      i ≠ root ∧ ∃ s, c.below? (t.path i) = some s ∧ s.id = some text) := by
    intro hi
    obtain ⟨s, d, depth, hplaced⟩ := (exists_placed_of_build h).2 i hi
    rw [hplaced.shows.givenId]
    by_cases hroot : i = root
    · simp [hroot]
    · rw [if_neg hroot, hplaced.state]
      simp [hroot]
  have hmem : text ∈ namesOf (t.node i) ↔
      text = (t.node i).id ∨ (t.node i).givenId = some text := by
    rw [namesOf, List.mem_cons, Option.mem_toList]
  constructor
  · intro hlookup
    obtain ⟨hi, hname⟩ := mem_namesOf_of_lookup hlookup
    exact ⟨hi, (hmem.mp hname).imp_right (hgiven hi).mp⟩
  · rintro ⟨hi, hname⟩
    exact lookup_of_mem_namesOf hi (hmem.mpr (hname.imp_right (hgiven hi).mpr))
      (nodup_names_of_build h)

/-- The handlers of a node are those of the draft that is placed there. -/
theorem exists_placed_of_handler (h : build name c = .ok t) {i : Nat} {handler : Handler}
    (hhandler : handler ∈ (t.node i).handlers) :
    ∃ s d depth, Placed t c i s d depth ∧ handler ∈ Draft.handlersAt i d.handlers := by
  rcases t.node_cases i with ⟨habsent, -⟩ | ⟨-, -, hi⟩
  · rw [habsent] at hhandler
    exact absurd hhandler List.not_mem_nil
  obtain ⟨s, d, depth, hplaced⟩ := (exists_placed_of_build h).2 i hi
  rw [hplaced.node_eq] at hhandler
  exact ⟨s, d, depth, hplaced, hhandler⟩

/-- A candidate is one of its node, and its target names a node. -/
theorem candidate_of_build (h : build name c = .ok t) {i : Nat} {handler : Handler}
    {a : Candidate} (hhandler : handler ∈ (t.node i).handlers) (ha : a ∈ handler.candidates) :
    a.source = i ∧
      ∀ label, a.target = some label → ∃ x, x < t.size ∧ t.resolveTarget i label = some x := by
  obtain ⟨s, d, depth, hplaced, hat⟩ := exists_placed_of_handler h hhandler
  have hi := hplaced.lt_size
  have hsource : a.source = i := source_of_handlersAt hat ha
  refine ⟨hsource, fun label hlabel => ?_⟩
  obtain ⟨-, _, _, -, -, htargets⟩ := exists_draft_of_build h
  have hall : a ∈ t.allCandidates :=
    List.mem_flatMap.mpr ⟨t.node i, Array.mem_toList_iff.mpr (node_mem hi),
      List.mem_flatMap.mpr ⟨handler, hhandler, ha⟩⟩
  have hresolves := resolves_of_checkTargets htargets hall
  rw [resolves, hlabel, hsource] at hresolves
  obtain ⟨x, hx⟩ := Option.isSome_iff_exists.mp hresolves
  exact ⟨x, resolveTarget_lt hi hx, hx⟩

/-- **Every tree that loads renders its definition.** -/
theorem renders_of_build (h : build name c = .ok t) : t.Renders name c := by
  have w := wellFormed_of_build h
  obtain ⟨⟨d, hroot⟩, hplaced⟩ := exists_placed_of_build h
  have hparent : ∀ {i p : Nat}, t.parent i = some p →
      ∃ s d' depth, Placed t c p s d' depth := fun hp =>
    hplaced _ (Nat.lt_trans (lt_of_parent hp) (lt_size_of_parent hp))
  exact { w with
    index := fun _ hi => node_index hi
    parent_lt := lt_of_parent
    stretch := fun i hi => by
      obtain ⟨s, d', depth, hi⟩ := hplaced i hi
      exact hi.stretch w
    ascending := fun p => by
      rcases t.node_cases p with ⟨hnode, -⟩ | ⟨-, -, hp⟩
      · rw [children, hnode]
        exact List.Pairwise.nil
      · obtain ⟨s, d', depth, hp⟩ := hplaced p hp
        exact hp.ascending
    state := fun i hi => by
      obtain ⟨s, d', depth, hi⟩ := hplaced i hi
      exact ⟨s, hi.state, hi.shows⟩
    exists_node := fun hs => by
      obtain ⟨i, d', depth, hpath, hi⟩ := hroot.exists_below hs
      rw [path_of_no_parent w.root_parent, List.nil_append] at hpath
      exact ⟨i, hi.lt_size, hpath⟩
    root_depth := by
      rw [hroot.node_eq]
      rfl
    depth := fun hp => by
      obtain ⟨s, d', depth, hplace⟩ := hparent hp
      exact hplace.depth_child (w.mem_children.mpr hp)
    root_key := (root_key_of_build h).2
    id := fun _ hi =>
      id_eq_keys w (by rw [root_id_of_build h, (root_key_of_build h).2]) hi
    key := fun _ hi => isKey_of_build h hi
    id_inj := fun _ _ hi hj => w.eq_of_id hi hj
    lookup_iff := lookup_iff_of_build h
    events := fun i => by
      rcases t.node_cases i with ⟨hnode, -⟩ | ⟨-, -, hi⟩
      · rw [hnode]
        exact List.nodup_nil
      · obtain ⟨s, d', depth, hi⟩ := hplaced i hi
        exact hi.events
    candidate := candidate_of_build h }

/-- A house with two floors at once, one of which remembers the room one was in. -/
def houseChart : StateConfig :=
  { StateConfig.blank with
    type := some .parallel
    states := [
      ("up", { StateConfig.blank with
        initial := some "bath"
        states := [
          ("bath", { StateConfig.blank with
            on := [("OUT", [{ CandidateConfig.idle with target := some "bed" }])] }),
          ("bed", { StateConfig.blank with
            id := some "cosy"
            after := [("500", [{ CandidateConfig.idle with target := some "#m.down" }])] }),
          ("last", { StateConfig.blank with history := some (.flag true) })] }),
      ("down", { StateConfig.blank with
        initial := some "hall"
        states := [
          ("hall", { StateConfig.blank with
            on := [("REST", [{ CandidateConfig.idle with target := some "#cosy" }])] }),
          ("door", { StateConfig.blank with type := some .final })] })] }

/-- The house is laid out floor by floor, and the bedroom is found by the id it was given. -/
theorem renders_of_build_houseChart : ∃ t, build "m" houseChart = .ok t ∧
    t.Renders "m" houseChart ∧ t.nodes.toList.map Node.id =
      ["m", "m.up", "m.up.bath", "m.up.bed", "m.up.last", "m.down", "m.down.hall", "m.down.door"] ∧
    t.lookup "cosy" = some 3 := by
  obtain ⟨t, ht, h⟩ := exists_of_run (x := build "m" houseChart)
    (p := fun t => t.nodes.toList.map Node.id ==
      ["m", "m.up", "m.up.bath", "m.up.bed", "m.up.last", "m.down", "m.down.hall",
        "m.down.door"] && t.lookup "cosy" == some 3) (by decide +kernel)
  obtain ⟨hids, hlookup⟩ := Bool.and_eq_true_iff.mp h
  exact ⟨t, ht, renders_of_build ht, beq_iff_eq.mp hids, beq_iff_eq.mp hlookup⟩

end Tree

end Statechart
