/-
What every tree that loads has in common.

`Tree.WellFormed` is what the proofs about steps ask of a tree, and nothing else of how
a tree came about: which node stands above which, what a compound node starts in, that
ids and keys tell nodes apart, and that every target names a node.  `wellFormed_of_build`
is where the checks of a definition pay for it; the draft behind a tree is not looked
at again afterwards.

The facts about single nodes come from `Stands.find`, which carries `Sound` from the
root of the draft to the draft of any number.  That ids tell nodes apart is a fact about
all of them at once: the ids of the array, node by node, are the list that the walk over
the definition let in only without repetition.
-/
import Mathlib.Data.List.Nodup
import Mathlib.Data.List.Pairwise
import Statechart.Proofs.Tree.Ancestry
import Statechart.Proofs.Tree.Draft
import Statechart.Proofs.Tree.Layout

namespace Statechart

open Outcome

namespace Tree

/-- What holds of every tree that loads. -/
structure WellFormed (t : Tree) : Prop where
  /-- Being a child and having a parent are the same. -/
  mem_children : ∀ {p c : Nat}, c ∈ t.children p ↔ t.parent c = some p
  /-- No child is listed twice. -/
  nodup_children : ∀ p, (t.children p).Nodup
  /-- Nothing stands above the root. -/
  root_parent : t.parent root = none
  /-- Every other node has a parent. -/
  exists_parent : ∀ i, i < t.size → i ≠ root → ∃ p, t.parent i = some p
  /-- Only compound and parallel nodes have children. -/
  hasChildren : ∀ {p c : Nat}, t.parent c = some p → (t.kind p).hasChildren = true
  /-- A compound node starts in a child that may be active. -/
  initial : ∀ {i : Nat}, t.kind i = .compound → ∃ c ∈ t.regions i, t.initialChild i = some c
  /-- The root may be active. -/
  root_kind : t.isHistory root = false
  /-- The id of a child is the id of its parent and its own key, joined. -/
  id_child : ∀ {p c : Nat}, t.parent c = some p →
    (t.node c).id = (t.node p).id ++ "." ++ (t.node c).key
  /-- The key of a child names it among its siblings. -/
  key_inj : ∀ {p b c : Nat}, t.parent b = some p → t.parent c = some p →
    (t.node b).key = (t.node c).key → b = c
  /-- No id is empty. -/
  id_ne : ∀ i, i < t.size → (t.node i).id ≠ ""
  /-- The id of a node finds it. -/
  lookup_id : ∀ i, i < t.size → t.lookup (t.node i).id = some i
  /-- A candidate knows the node it stands at. -/
  source : ∀ {i : Nat} {e : String} {c : Candidate}, c ∈ (t.node i).candidates e → c.source = i
  /-- A target that is written at a node names a node. -/
  target : ∀ {i : Nat} {e : String} {c : Candidate} {label : String},
    c ∈ (t.node i).candidates e → c.target = some label → ∃ x, t.resolveTarget i label = some x

/-- The ids under which a node is found. -/
def namesOf (n : Node) : List String := n.id :: n.givenId.toList

/-- A number that has a parent is in the tree. -/
theorem lt_size_of_parent {t : Tree} {i p : Nat} (h : t.parent i = some p) : i < t.size := by
  rcases t.node_cases i with ⟨hnode, _⟩ | ⟨_, _, hlt⟩
  · rw [parent, hnode] at h
    cases h
  · exact hlt

theorem node_mem {t : Tree} {i : Nat} (h : i < t.size) : t.node i ∈ t.nodes := by
  rcases t.node_cases i with ⟨_, hge⟩ | ⟨hmem, _, _⟩
  · omega
  · exact hmem

theorem node_index {t : Tree} {i : Nat} (h : i < t.size) : (t.node i).index = i := by
  rcases t.node_cases i with ⟨_, hge⟩ | ⟨_, hindex, _⟩
  · omega
  · exact hindex

/-- A candidate for an event stands in the handler of the event. -/
theorem handler_of_candidates {t : Tree} {i : Nat} {name : String} {c : Candidate}
    (hc : c ∈ (t.node i).candidates name) :
    ∃ h ∈ (t.node i).handlers, h.event = name ∧ c ∈ h.candidates := by
  unfold Node.candidates at hc
  split at hc
  · rename_i h hfind
    refine ⟨h, List.mem_of_find?_eq_some hfind, ?_, hc⟩
    exact beq_iff_eq.mp (List.find?_some (p := fun h : Handler => h.event == name) hfind)
  · exact absurd hc List.not_mem_nil

theorem mem_namesOf_iff {n : Node} {id : String} :
    (n.id == id || n.givenId == some id) = true ↔ id ∈ namesOf n := by
  rw [namesOf, List.mem_cons, Option.mem_toList, Bool.or_eq_true, beq_iff_eq, beq_iff_eq]
  constructor
  · rintro (h | h)
    · exact Or.inl h.symm
    · exact Or.inr h
  · rintro (h | h)
    · exact Or.inl h.symm
    · exact Or.inr h

/-- What is found is a node that has the text among its ids. -/
theorem mem_namesOf_of_lookup {t : Tree} {i : Nat} {id : String} (h : t.lookup id = some i) :
    i < t.size ∧ id ∈ namesOf (t.node i) := by
  obtain ⟨n, hn, rfl⟩ := Option.map_eq_some_iff.mp h
  have hfound := List.find?_some (p := fun n : Node => n.id == id || n.givenId == some id) hn
  obtain ⟨k, hk⟩ := List.mem_iff_getElem?.mp (List.mem_of_find?_eq_some hn)
  rw [Array.getElem?_toList] at hk
  rw [t.index_eq k n hk]
  refine ⟨(Array.getElem?_eq_some_iff.mp hk).1, ?_⟩
  rw [node, node?, hk]
  exact mem_namesOf_iff.mp hfound

/-- A node is found by any of its ids, when no two nodes share one. -/
theorem lookup_of_mem_namesOf {t : Tree} {i : Nat} {id : String} (hi : i < t.size)
    (hid : id ∈ namesOf (t.node i)) (hnodup : (t.nodes.toList.flatMap namesOf).Nodup) :
    t.lookup id = some i := by
  have hmem : t.node i ∈ t.nodes.toList := Array.mem_toList_iff.mpr (node_mem hi)
  unfold lookup
  cases hfind : t.nodes.toList.find? fun n => n.id == id || n.givenId == some id with
  | none => exact absurd (mem_namesOf_iff.mpr hid) (List.find?_eq_none.mp hfind _ hmem)
  | some n =>
      have hfound := List.find?_some (p := fun n : Node => n.id == id || n.givenId == some id) hfind
      have hn : id ∈ namesOf n := mem_namesOf_iff.mp hfound
      have heq : n = t.node i := by
        by_contra hne
        have hpair := (List.nodup_flatMap.mp hnodup).2
        have : Std.Symm (Function.onFun List.Disjoint namesOf) := ⟨fun _ _ h _ ha hb => h hb ha⟩
        exact hpair.forall (List.mem_of_find?_eq_some hfind) hmem hne hn hid
      rw [Option.map_some, heq, node_index hi]

/-- A child is found by its key, when no other child has it. -/
theorem child_of_inj {t : Tree} {p c : Nat} (hc : c ∈ t.children p)
    (hinj : ∀ b ∈ t.children p, (t.node b).key = (t.node c).key → b = c) :
    t.child p (t.node c).key = some c := by
  unfold child
  cases hfind : (t.children p).find? fun b => (t.node b).key == (t.node c).key with
  | none => exact absurd (beq_self_eq_true _) (List.find?_eq_none.mp hfind c hc)
  | some b =>
      have hkey : (t.node b).key = (t.node c).key := by simpa using List.find?_some hfind
      rw [hinj b (List.mem_of_find?_eq_some hfind) hkey]

end Tree

namespace Draft

mutual

theorem flatMap_nodes (start : Nat) (parent : Option Nat) (depth : Nat) :
    ∀ d : Draft, (nodes start parent depth d).flatMap Tree.namesOf = names d
  | ⟨_, _, _, _, _, _, _, _, children⟩ => by
      rw [nodes, names, List.flatMap_cons, flatMap_allNodes _ _ _ children]
      rfl

theorem flatMap_allNodes (start parent : Nat) (depth : Nat) :
    ∀ ds : List Draft, (allNodes start parent depth ds).flatMap Tree.namesOf = namesAll ds
  | [] => rfl
  | d :: rest => by
      rw [allNodes, namesAll, List.flatMap_append, flatMap_nodes _ _ _ d,
        flatMap_allNodes _ _ _ rest]

end

/-- A sound draft that stands at a number, where the tree knows whether it is the root. -/
structure Grounded (t : Tree) (i : Nat) (d : Draft) (parent : Option Nat) (depth : Nat) :
    Prop where
  stands : Stands t i parent depth d
  sound : Sound d
  root : i = Tree.root → parent = none
  other : i ≠ Tree.root → ∃ p, parent = some p ∧ i ∈ t.children p

theorem exists_grounded {d : Draft} (hd : Sound d) {i : Nat} (hi : i < d.toTree.size) :
    ∃ d' parent depth, Grounded d.toTree i d' parent depth := by
  rw [size_toTree] at hi
  obtain ⟨d', parent, depth, hstands, hsound, hroot, hother⟩ :=
    (stands_toTree d).find (P := Sound) (fun _ h => h.child) d.size rfl hd i (Nat.zero_le i)
      (by omega)
  exact ⟨d', parent, depth, hstands, hsound, hroot, hother⟩

namespace Grounded

variable {t : Tree} {i : Nat} {d : Draft} {parent : Option Nat} {depth : Nat}

theorem node_eq (h : Grounded t i d parent depth) : t.node i = head i parent depth d :=
  h.stands.head.2

/-- A child of the node has a draft among those below. -/
theorem get_child (h : Grounded t i d parent depth) {c : Nat} (hc : c ∈ t.children i) :
    ∃ (k : Nat) (b : Draft), d.children[k]? = some b ∧ (t.children i)[k]? = some c ∧
      t.node c = head c (some i) (depth + 1) b := by
  obtain ⟨k, b, hb, hk, hstands⟩ := h.stands.get_child hc
  refine ⟨k, b, hb, ?_, hstands.head.2⟩
  rw [Tree.children, h.node_eq]
  exact hk

theorem parent_child (h : Grounded t i d parent depth) {c : Nat} (hc : c ∈ t.children i) :
    t.parent c = some i := by
  obtain ⟨_, _, _, _, hnode⟩ := h.get_child hc
  rw [Tree.parent, hnode]
  rfl

theorem child_unique (h : Grounded t i d parent depth) {b c : Nat} (hb : b ∈ t.children i)
    (hc : c ∈ t.children i) (hkey : (t.node b).key = (t.node c).key) : b = c := by
  obtain ⟨k, db, hdb, hkb, hnode⟩ := h.get_child hb
  obtain ⟨l, dc, hdc, hlc, hnode'⟩ := h.get_child hc
  rw [hnode, hnode'] at hkey
  have hk : (d.children.map Draft.key)[k]? = some db.key := by rw [List.getElem?_map, hdb]; rfl
  have hl : (d.children.map Draft.key)[l]? = some dc.key := by rw [List.getElem?_map, hdc]; rfl
  have hlt : k < (d.children.map Draft.key).length := (List.getElem?_eq_some_iff.mp hk).1
  have hkl : k = l :=
    (List.getElem?_inj hlt h.sound.head.keys).mp (hk.trans ((congrArg some hkey).trans hl.symm))
  subst hkl
  rw [hkb] at hlc
  exact Option.some.inj hlc

/-- The key of a draft below finds its node. -/
theorem child_eq (h : Grounded t i d parent depth) {c : Nat} (hc : c ∈ t.children i) :
    t.child i (t.node c).key = some c :=
  Tree.child_of_inj hc fun _ hb hkey => h.child_unique hb hc hkey

theorem initial (h : Grounded t i d parent depth) (hkind : t.kind i = .compound) :
    ∃ c ∈ t.regions i, t.initialChild i = some c := by
  rw [Tree.kind, h.node_eq] at hkind
  obtain ⟨b, hb, hinitial, hhistory⟩ := h.sound.head.initial hkind
  obtain ⟨k, hk⟩ := List.mem_iff_getElem?.mp hb
  obtain ⟨c, hc, hstands⟩ := h.stands.children.get hk
  have hmem : c ∈ t.children i := by
    rw [Tree.children, h.node_eq]
    exact List.mem_of_getElem? hc
  have hnode := hstands.head.2
  refine ⟨c, ?_, ?_⟩
  · rw [Tree.regions, List.mem_filter]
    refine ⟨hmem, ?_⟩
    rw [Tree.isHistory, Tree.kind, hnode]
    show (!b.kind.isHistory) = true
    rw [hhistory]
    rfl
  · have hkey : (t.node c).key = b.key := by rw [hnode]; rfl
    have hi : (t.node i).initial = some (t.node c).key := by
      rw [h.node_eq, hkey]
      exact hinitial
    rw [Tree.initialChild, hi]
    exact h.child_eq hmem

theorem id_child (h : Grounded t i d parent depth) {c : Nat} (hc : c ∈ t.children i) :
    (t.node c).id = (t.node i).id ++ "." ++ (t.node c).key := by
  obtain ⟨_, b, hb, _, hnode⟩ := h.get_child hc
  rw [hnode, h.node_eq]
  exact h.sound.head.ids b (List.mem_of_getElem? hb)

theorem hasChildren (h : Grounded t i d parent depth) {c : Nat} (hc : c ∈ t.children i) :
    (t.kind i).hasChildren = true := by
  obtain ⟨_, b, hb, _⟩ := h.get_child hc
  rw [Tree.kind, h.node_eq]
  exact h.sound.head.hasChildren (List.ne_nil_of_mem (List.mem_of_getElem? hb))

theorem nodup_children (h : Grounded t i d parent depth) : (t.children i).Nodup := by
  rw [Tree.children, h.node_eq]
  exact (pairwise_starts _ _).imp Nat.ne_of_lt

theorem source (h : Grounded t i d parent depth) {e : String} {c : Candidate}
    (hc : c ∈ (t.node i).candidates e) : c.source = i := by
  obtain ⟨handler, hmem, -, hc⟩ := Tree.handler_of_candidates hc
  rw [h.node_eq] at hmem
  obtain ⟨draft, _, rfl⟩ := List.mem_map.mp hmem
  obtain ⟨k, _, rfl⟩ := List.mem_mapIdx.mp hc
  rfl

end Grounded

end Draft

namespace Tree

/-- The candidates of a node are listed with the tree's, and the node is in the tree. -/
theorem mem_allCandidates {t : Tree} {i : Nat} {e : String} {c : Candidate}
    (hc : c ∈ (t.node i).candidates e) : i < t.size ∧ c ∈ t.allCandidates := by
  obtain ⟨handler, hmem, -, hc⟩ := handler_of_candidates hc
  rcases t.node_cases i with ⟨hnode, _⟩ | ⟨hnode, _, hlt⟩
  · rw [hnode] at hmem
    exact absurd hmem List.not_mem_nil
  · refine ⟨hlt, List.mem_flatMap.mpr ⟨t.node i, Array.mem_toList_iff.mpr hnode, ?_⟩⟩
    exact List.mem_flatMap.mpr ⟨handler, hmem, hc⟩

/-- A node that may have children is in the tree. -/
theorem lt_size_of_hasChildren {t : Tree} {i : Nat} (h : (t.kind i).hasChildren = true) :
    i < t.size := by
  rcases t.node_cases i with ⟨hnode, _⟩ | ⟨_, _, hlt⟩
  · rw [kind, hnode] at h
    cases h
  · exact hlt

theorem lt_size_of_compound {t : Tree} {i : Nat} (h : t.kind i = .compound) : i < t.size :=
  lt_size_of_hasChildren (by rw [h]; rfl)

theorem lt_size_of_parallel {t : Tree} {i : Nat} (h : t.kind i = .parallel) : i < t.size :=
  lt_size_of_hasChildren (by rw [h]; rfl)

theorem nodup_children_of_grounded {t : Tree} (p : Nat)
    (h : p < t.size → (t.children p).Nodup) : (t.children p).Nodup := by
  rcases t.node_cases p with ⟨hnode, _⟩ | ⟨_, _, hlt⟩
  · rw [children, hnode]
    exact List.nodup_nil
  · exact h hlt

theorem resolves_of_checkTargets {t : Tree} (h : t.checkTargets = .ok ()) {c : Candidate}
    (hc : c ∈ t.allCandidates) : t.resolves c = true := by
  unfold checkTargets at h
  split at h
  · rename_i hnone
    have := List.find?_eq_none.mp hnone c hc
    rwa [Bool.not_eq_true, Bool.not_eq_false'] at this
  · cases h

/-! ### The tree of a sound draft -/

section

variable {d : Draft} {p c : Nat}

theorem lt_size_of_mem_children {t : Tree} (h : c ∈ t.children p) : p < t.size :=
  Nat.lt_trans (lt_of_child h).1 (lt_of_child h).2

theorem exists_grounded_of_child (hd : Draft.Sound d) (h : c ∈ d.toTree.children p) :
    ∃ d' parent depth, Draft.Grounded d.toTree p d' parent depth :=
  Draft.exists_grounded hd (lt_size_of_mem_children h)

theorem mem_children_toTree (hd : Draft.Sound d) :
    c ∈ d.toTree.children p ↔ d.toTree.parent c = some p := by
  constructor
  · intro h
    obtain ⟨_, _, _, hp⟩ := exists_grounded_of_child hd h
    exact hp.parent_child h
  · intro h
    obtain ⟨d', parent, depth, hc⟩ := Draft.exists_grounded hd (lt_size_of_parent h)
    rw [Tree.parent, hc.node_eq] at h
    have hparent : parent = some p := h
    by_cases hroot : c = root
    · rw [hc.root hroot] at hparent
      cases hparent
    · obtain ⟨q, hq, hmem⟩ := hc.other hroot
      rw [hq] at hparent
      cases hparent
      exact hmem

theorem node_root_toTree : d.toTree.node root = Draft.head root none 0 d :=
  (Draft.stands_toTree d).head.2

theorem id_toTree (hd : Draft.Sound d) (h : d.toTree.parent c = some p) :
    (d.toTree.node c).id = (d.toTree.node p).id ++ "." ++ (d.toTree.node c).key := by
  have hmem := (mem_children_toTree hd).mpr h
  obtain ⟨_, _, _, hp⟩ := exists_grounded_of_child hd hmem
  exact hp.id_child hmem

theorem exists_parent_toTree (hd : Draft.Sound d) (hc : c < d.toTree.size) (hne : c ≠ root) :
    ∃ p, d.toTree.parent c = some p := by
  obtain ⟨_, _, _, hgrounded⟩ := Draft.exists_grounded hd hc
  obtain ⟨p, _, hmem⟩ := hgrounded.other hne
  exact ⟨p, (mem_children_toTree hd).mp hmem⟩

theorem id_ne_toTree (hd : Draft.Sound d) (hid : d.id ≠ "") (hc : c < d.toTree.size) :
    (d.toTree.node c).id ≠ "" := by
  by_cases hne : c = root
  · rw [hne, node_root_toTree]
    exact hid
  · obtain ⟨p, hp⟩ := exists_parent_toTree hd hc hne
    rw [id_toTree hd hp]
    simp

theorem source_toTree (hd : Draft.Sound d) {i : Nat} {e : String} {c : Candidate}
    (hc : c ∈ (d.toTree.node i).candidates e) : c.source = i := by
  obtain ⟨_, _, _, hgrounded⟩ := Draft.exists_grounded hd (mem_allCandidates hc).1
  exact hgrounded.source hc

/-- The ids of the nodes are those that the walk over the definition met. -/
theorem nodup_names_toTree (hnames : (Draft.names d).Nodup) :
    (d.toTree.nodes.toList.flatMap namesOf).Nodup := by
  show ((Draft.nodes 0 none 0 d).toArray.toList.flatMap namesOf).Nodup
  rwa [List.toList_toArray, Draft.flatMap_nodes]

/-- The tree of a sound draft without shared ids is well formed, if its targets name nodes. -/
theorem wellFormed_toTree (hd : Draft.Sound d) (hid : d.id ≠ "")
    (hkind : d.kind.isHistory = false) (hnames : (Draft.names d).Nodup)
    (htargets : d.toTree.checkTargets = .ok ()) : WellFormed d.toTree := by
  have hunique := nodup_names_toTree hnames
  exact {
    mem_children := mem_children_toTree hd
    nodup_children := fun p => nodup_children_of_grounded p fun hp => by
      obtain ⟨_, _, _, hgrounded⟩ := Draft.exists_grounded hd hp
      exact hgrounded.nodup_children
    root_parent := by rw [parent, node_root_toTree]; rfl
    exists_parent := fun _ hc hne => exists_parent_toTree hd hc hne
    hasChildren := by
      intro p c h
      have hmem := (mem_children_toTree hd).mpr h
      obtain ⟨_, _, _, hp⟩ := exists_grounded_of_child hd hmem
      exact hp.hasChildren hmem
    initial := by
      intro i hi
      obtain ⟨_, _, _, hgrounded⟩ := Draft.exists_grounded hd (lt_size_of_compound hi)
      exact hgrounded.initial hi
    root_kind := by rw [isHistory, kind, node_root_toTree]; exact hkind
    id_child := id_toTree hd
    key_inj := by
      intro p b c hb hc hkey
      have hmem := (mem_children_toTree hd).mpr hb
      obtain ⟨_, _, _, hp⟩ := exists_grounded_of_child hd hmem
      exact hp.child_unique hmem ((mem_children_toTree hd).mpr hc) hkey
    id_ne := fun _ hc => id_ne_toTree hd hid hc
    lookup_id := fun i hi => lookup_of_mem_namesOf hi (List.mem_cons_self ..) hunique
    source := source_toTree hd
    target := by
      intro i e c label hc hlabel
      have hresolves := resolves_of_checkTargets htargets (mem_allCandidates hc).2
      rw [resolves, hlabel, source_toTree hd hc] at hresolves
      exact Option.isSome_iff_exists.mp hresolves }

end

/-- A tree that loads is laid out by a draft that has passed the checks. -/
theorem exists_draft_of_build {name : String} {c : StateConfig} {t : Tree}
    (h : build name c = .ok t) : name ≠ "" ∧ ∃ (d : Draft) (seen : List String),
      Draft.check true name name [] c = .ok (d, seen) ∧ t = d.toTree ∧ t.checkTargets = .ok () := by
  unfold build at h
  obtain ⟨u, hkey, h⟩ := bind_eq_ok.mp h
  obtain ⟨⟨d, seen⟩, hcheck, h⟩ := bind_eq_ok.mp h
  obtain ⟨u', htargets, h⟩ := bind_eq_ok.mp h
  cases h
  exact ⟨(isKey_of_checkKey hkey).ne, d, seen, hcheck, rfl, Draft.refuse_eq_ok.mp htargets⟩

/-- **A tree that loads is well formed.** -/
theorem wellFormed_of_build {name : String} {c : StateConfig} {t : Tree}
    (h : build name c = .ok t) : WellFormed t := by
  obtain ⟨hne, d, seen, hcheck, rfl, htargets⟩ := exists_draft_of_build h
  obtain ⟨hsound, hkind, hnames⟩ := Draft.sound_of_check hcheck
  refine wellFormed_toTree hsound ?_ hkind hnames htargets
  rwa [(Draft.check_eq_ok true name name [] c d seen hcheck).id_eq]

/-- The id of the root is the name that the tree was loaded with. -/
theorem root_id_of_build {name : String} {c : StateConfig} {t : Tree}
    (h : build name c = .ok t) : (t.node root).id = name := by
  obtain ⟨_, d, seen, hcheck, rfl, _⟩ := exists_draft_of_build h
  have hroot : d.toTree.node root = Draft.head root none 0 d := (Draft.stands_toTree d).head.2
  rw [hroot]
  exact (Draft.check_eq_ok true name name [] c d seen hcheck).id_eq

/-! ### Reading a well-formed tree -/

namespace WellFormed

variable {t : Tree} {i p c : Nat}

theorem mem_regions (w : t.WellFormed) :
    c ∈ t.regions p ↔ t.parent c = some p ∧ t.isHistory c = false := by
  rw [regions, List.mem_filter, w.mem_children, Bool.not_eq_true']

theorem nodup_regions (w : t.WellFormed) (p : Nat) : (t.regions p).Nodup :=
  (w.nodup_children p).filter _

/-- Ids tell nodes apart. -/
theorem eq_of_id (w : t.WellFormed) (hi : i < t.size) (hc : c < t.size)
    (h : (t.node i).id = (t.node c).id) : i = c := by
  have hlookup := w.lookup_id i hi
  rw [h, w.lookup_id c hc] at hlookup
  exact (Option.some.inj hlookup).symm

/-- The key of a child finds it. -/
theorem child_key (w : t.WellFormed) (hc : t.parent c = some p) :
    t.child p (t.node c).key = some c :=
  child_of_inj (w.mem_children.mpr hc) fun _ hb hkey => w.key_inj (w.mem_children.mp hb) hc hkey

/-- Everything is at the root or below it. -/
theorem within_root (w : t.WellFormed) : i < t.size → t.Within i root := by
  induction i using Nat.strong_induction_on with
  | _ i ih =>
      intro hi
      by_cases hroot : i = root
      · exact Or.inl hroot
      · obtain ⟨p, hp⟩ := w.exists_parent i hi hroot
        have hlt := lt_of_parent hp
        exact Or.inr ((below_iff_of_parent hp).mpr (ih p hlt (Nat.lt_trans hlt hi)))

/-- Nothing stands above the root. -/
theorem eq_root_of_within (w : t.WellFormed) (h : t.Within root i) : i = root :=
  (h.resolve_right (not_below_of_no_parent w.root_parent)).symm

/-- What has something below it is a compound or a parallel node. -/
theorem kind_of_child (w : t.WellFormed) (h : t.parent c = some p) :
    t.kind p = .compound ∨ t.kind p = .parallel := by
  have hchildren := w.hasChildren h
  cases hkind : t.kind p with
  | compound => exact Or.inl rfl
  | parallel => exact Or.inr rfl
  | atomic => rw [hkind] at hchildren; cases hchildren
  | final => rw [hkind] at hchildren; cases hchildren
  | history k => rw [hkind] at hchildren; cases hchildren

theorem isHistory_of_child (w : t.WellFormed) (h : t.parent c = some p) :
    t.isHistory p = false := by
  rcases w.kind_of_child h with hkind | hkind <;> rw [isHistory, hkind] <;> rfl

theorem isHistory_of_below (w : t.WellFormed) (h : t.Below i p) : t.isHistory p = false := by
  obtain ⟨c, hc, _⟩ := h.exists_child
  exact w.isHistory_of_child hc

theorem isLeaf_of_below (w : t.WellFormed) (h : t.Below i p) : t.isLeaf p = false := by
  obtain ⟨c, hc, _⟩ := h.exists_child
  rcases w.kind_of_child hc with hkind | hkind <;> rw [isLeaf, hkind] <;> rfl

end WellFormed

/-- A leaf is no history node. -/
theorem isHistory_of_isLeaf {t : Tree} {i : Nat} (h : t.isLeaf i = true) :
    t.isHistory i = false := by
  unfold isLeaf at h
  unfold isHistory
  cases hkind : t.kind i with
  | history k => rw [hkind] at h; cases h
  | atomic | compound | parallel | final => rfl

/-- Walking down keys stays in the tree. -/
theorem descend_lt {t : Tree} {path : List String} {x : Nat} :
    ∀ {i : Nat}, i < t.size → t.descend i path = some x → x < t.size := by
  induction path with
  | nil => intro i hi h; cases h; exact hi
  | cons key rest ih =>
      intro i hi h
      rw [descend] at h
      split at h
      · rename_i c hc
        exact ih (lt_of_child (List.mem_of_find?_eq_some hc)).2 h
      · cases h

/-- A target that is found is in the tree. -/
theorem resolveTarget_lt {t : Tree} {label : String} {i x : Nat} (hi : i < t.size)
    (h : t.resolveTarget i label = some x) : x < t.size := by
  unfold resolveTarget at h
  split at h
  · exact (mem_namesOf_of_lookup h).1
  · exact descend_lt hi h
  · refine descend_lt ?_ h
    cases hp : t.parent i with
    | none => exact hi
    | some p => exact Nat.lt_trans (lt_of_parent hp) hi

end Tree

end Statechart
