/-
Which ids of the graph of a tree differ.

An id in the graph is put together from ids of nodes and the name of an event.  Nodes can be
told apart by their ids, because a key holds no dot.  What is put together of them cannot
always: a key may hold the colon that joins the parts, and an event may hold the sign that
comes before the place of a candidate.  So the dot in a node has the id of a sibling whose
key is spelled like it (`markerId_eq_iff`), and an edge has the id of another when both ids
that it may have are taken (`nodup_foldl_addEdge`).  Where no key holds a colon an id is
taken apart in one way only, into its source, its target and its event (`Spells.inj`).
-/
import Mathlib.Data.List.Induction
import Mathlib.Data.List.Nodup
import Statechart.Proofs.Tree.Letters
import Statechart.View.Graph

namespace Statechart.View

open Statechart.Tree Outcome

variable {t : Tree} {k n : Nat}

theorem markerId_toList {id : String} : (markerId id).toList = id.toList ++ ":initial".toList := by
  rw [markerId, String.toList_append]

/-- **The dot in a node has the id of another node when that is its sibling, with a key that
is spelled like the dot.** -/
theorem markerId_eq_iff (w : t.Lettered) (hk : k < t.size) (hn : n < t.size) :
    markerId (t.node k).id = (t.node n).id ↔
      ∃ p, t.parent k = some p ∧ t.parent n = some p ∧
        (t.node n).key = (t.node k).key ++ ":initial" := by
  have hsuffix : '.' ∉ ":initial".toList := by decide
  constructor
  · intro h
    have hlist : (t.node k).id.toList ++ ":initial".toList = (t.node n).id.toList := by
      rw [← markerId_toList, h]
    by_cases hnroot : n = root
    · -- an id without a dot is that of the root, and the dot in the root has a longer one
      have hkroot : k = root := by
        by_contra hkroot
        obtain ⟨q, hq⟩ := w.exists_parent k hk hkroot
        refine w.dot_root ?_
        rw [← hnroot, ← hlist, w.id_child_toList hq]
        simp
      have hlength := congrArg List.length hlist
      rw [hnroot, hkroot] at hlength
      simp at hlength
    · obtain ⟨p, hp⟩ := w.exists_parent n hn hnroot
      rw [w.id_child_toList hp] at hlist
      by_cases hkroot : k = root
      · have hdot : '.' ∈ (t.node k).id.toList ++ ":initial".toList := by
          rw [hlist]
          simp
        rcases List.mem_append.mp hdot with hdot | hdot
        · exact absurd (hkroot ▸ hdot) w.dot_root
        · exact absurd hdot hsuffix
      · obtain ⟨q, hq⟩ := w.exists_parent k hk hkroot
        rw [w.id_child_toList hq, List.append_assoc, List.cons_append] at hlist
        have hkey : '.' ∉ (t.node k).key.toList ++ ":initial".toList := by
          simp [(w.key k hk).dot]
        obtain ⟨hid, hkey⟩ := append_sep_inj_right hkey (w.key n hn).dot hlist
        have hlt {i j : Nat} (hj : t.parent i = some j) (hi : i < t.size) : j < t.size :=
          Nat.lt_trans (lt_of_parent hj) hi
        obtain rfl := w.eq_of_id (hlt hq hk) (hlt hp hn) (String.toList_inj.mp hid)
        refine ⟨q, hq, hp, String.toList_inj.mp ?_⟩
        rw [String.toList_append, hkey]
  · rintro ⟨p, hp, hn, hkey⟩
    rw [markerId, w.id_child hp, w.id_child hn, hkey, String.append_assoc]

namespace Graph

/-! ### Boxes -/

theorem boxes_ofTree :
    (ofTree t).boxes = (List.range t.size).flatMap fun i => boxesOf t (t.node i) := by
  rw [ofTree, nodes_eq, List.flatMap_map]

theorem mem_ids_boxesOf {id : String} {i : Nat} :
    id ∈ (boxesOf t (t.node i)).map Box.id ↔
      id = (t.node i).id ∨ pointedAt t (t.node i) ≠ [] ∧ id = markerId (t.node i).id := by
  rw [boxesOf, List.map_cons, List.mem_cons]
  refine or_congr Iff.rfl ?_
  split <;> simp_all [markerBox]

/-- A node with a dot in it has a sibling whose key is spelled like the dot. -/
def Shadowed (t : Tree) : Prop :=
  ∃ p k n, t.parent k = some p ∧ t.parent n = some p ∧ pointedAt t (t.node k) ≠ [] ∧
    (t.node n).key = (t.node k).key ++ ":initial"

theorem markerId_ne {id : String} : markerId id ≠ id := by
  intro h
  have hlength := congrArg List.length (markerId_toList.symm.trans (congrArg String.toList h))
  simp at hlength

theorem markerId_inj {a b : String} (h : markerId a = markerId b) : a = b := by
  have hlist := congrArg String.toList h
  rw [markerId_toList, markerId_toList] at hlist
  exact String.toList_inj.mp (List.append_cancel_right hlist)

/-- **The boxes have different ids unless a dot has the id of a node.** -/
theorem nodup_boxes_iff (w : t.Lettered) :
    ((ofTree t).boxes.map Box.id).Nodup ↔ ¬ Shadowed t := by
  rw [boxes_ofTree, List.map_flatMap, List.nodup_flatMap]
  constructor
  · rintro ⟨_, hdisjoint⟩ ⟨p, k, n, hk, hn, hpointed, hkey⟩
    have hsize {i : Nat} (hi : t.parent i = some p) : i < t.size := lt_size_of_parent hi
    have hne : k ≠ n := by
      rintro rfl
      have hlength := congrArg (fun s => s.toList.length) hkey
      simp at hlength
    have hid := (markerId_eq_iff w (hsize hk) (hsize hn)).mpr ⟨p, hk, hn, hkey⟩
    have hsymm : Std.Symm (Function.onFun List.Disjoint fun i =>
        (boxesOf t (t.node i)).map Box.id) := ⟨fun _ _ h _ ha hb => h hb ha⟩
    exact hdisjoint.forall (List.mem_range.mpr (hsize hk)) (List.mem_range.mpr (hsize hn)) hne
      (mem_ids_boxesOf.mpr (Or.inr ⟨hpointed, rfl⟩)) (mem_ids_boxesOf.mpr (Or.inl hid))
  · intro hclear
    have hmarker {i j : Nat} (hi : i < t.size) (hj : j < t.size)
        (hpointed : pointedAt t (t.node i) ≠ []) : markerId (t.node i).id ≠ (t.node j).id := by
      intro h
      obtain ⟨p, hip, hjp, hkey⟩ := (markerId_eq_iff w hi hj).mp h
      exact hclear ⟨p, i, j, hip, hjp, hpointed, hkey⟩
    refine ⟨fun i _ => ?_, (List.pairwise_lt_range (n := t.size)).imp_of_mem ?_⟩
    · rw [boxesOf]
      split
      · simp
      · simpa [nodeBox, markerBox] using markerId_ne.symm
    · intro i j hi hj hlt id hleft hright
      rw [List.mem_range] at hi hj
      rcases mem_ids_boxesOf.mp hleft with rfl | ⟨hpi, rfl⟩ <;>
        rcases mem_ids_boxesOf.mp hright with hid | ⟨hpj, hid⟩
      · exact absurd (w.eq_of_id hi hj hid) (Nat.ne_of_lt hlt)
      · exact hmarker hj hi hpj hid.symm
      · exact hmarker hi hj hpi hid
      · exact absurd (w.eq_of_id hi hj (markerId_inj hid)) (Nat.ne_of_lt hlt)

/-! ### Edges -/

theorem hash_repr {j : Nat} : '#' ∉ (Nat.repr j).toList := fun hmem =>
  absurd (isDigit_of_mem_repr hmem) (by decide)

theorem repr_toList_inj {i j : Nat} (h : (Nat.repr i).toList = (Nat.repr j).toList) : i = j := by
  rw [Nat.toList_repr, Nat.toList_repr] at h
  have hvalue := congrArg (Nat.ofDigitChars 10 · 0) h
  simpa using hvalue

/-- Two edges that differ at most in their ids. -/
def SameButId (e f : Edge) : Prop := f = { e with id := f.id }

/-- Every edge is drawn, at its place, if need be with another id. -/
theorem drawn_foldl_addEdge (edges : List Edge) :
    List.Forall₂ SameButId edges (edges.foldl addEdge []) := by
  induction edges using List.reverseRecOn with
  | nil => exact .nil
  | append_singleton edges e ih =>
      rw [List.foldl_concat, addEdge]
      split
      · exact List.rel_append ih (.cons rfl .nil)
      · exact List.rel_append ih (.cons rfl .nil)

/-- The id of an edge with its place. -/
def placedId (e : Edge) : String := e.id ++ "#" ++ Nat.repr e.order

theorem ids_addEdge {edges : List Edge} {e : Edge} : (addEdge edges e).map Edge.id =
    edges.map Edge.id ++ [if e.id ∈ edges.map Edge.id then placedId e else e.id] := by
  have htaken : edges.any (fun f => f.id == e.id) = true ↔ e.id ∈ edges.map Edge.id := by
    simp
  unfold addEdge
  split
  · rename_i h
    rw [if_pos (htaken.mp h), List.map_append]
    rfl
  · rename_i h
    rw [if_neg (mt htaken.mpr h), List.map_append]
    rfl

/-- Some edge finds both its ids taken by those that are drawn before it. -/
def Crowded (edges : List Edge) : Prop :=
  ∃ before e after, edges = before ++ e :: after ∧
    e.id ∈ (before.foldl addEdge []).map Edge.id ∧
    placedId e ∈ (before.foldl addEdge []).map Edge.id

/-- **The edges have different ids unless one finds both its ids taken.** -/
theorem nodup_foldl_addEdge {edges : List Edge} :
    ((edges.foldl addEdge []).map Edge.id).Nodup ↔ ¬ Crowded edges := by
  induction edges using List.reverseRecOn with
  | nil =>
      refine ⟨fun _ => ?_, fun _ => List.nodup_nil⟩
      rintro ⟨before, e, after, heq, _⟩
      simp at heq
  | append_singleton edges e ih =>
      have hcrowded : Crowded (edges ++ [e]) ↔ Crowded edges ∨
          (e.id ∈ (edges.foldl addEdge []).map Edge.id ∧
            placedId e ∈ (edges.foldl addEdge []).map Edge.id) := by
        constructor
        · rintro ⟨before, f, after, heq, hf⟩
          rcases List.eq_nil_or_concat after with rfl | ⟨after, g, rfl⟩
          · obtain ⟨rfl, hfe⟩ := List.append_inj' heq rfl
            cases hfe
            exact Or.inr hf
          · have hsplit : edges ++ [e] = (before ++ f :: after) ++ [g] := by simpa using heq
            obtain ⟨hedges, _⟩ := List.append_inj' hsplit rfl
            exact Or.inl ⟨before, f, after, hedges, hf⟩
        · rintro (⟨before, f, after, rfl, hf⟩ | he)
          · exact ⟨before, f, after ++ [e], by simp, hf⟩
          · exact ⟨edges, e, [], rfl, he⟩
      rw [List.foldl_concat, ids_addEdge, List.nodup_append, ih, hcrowded]
      split <;> simp_all

/-- Edges with different places under one id, none of which is spelled like another with its
place, are not in each other's way. -/
theorem not_crowded {edges : List Edge}
    (hplace : edges.Pairwise fun e f => e.id = f.id → e.order ≠ f.order)
    (hfree : ∀ e ∈ edges, ∀ f ∈ edges, e.id ≠ placedId f) : ¬ Crowded edges := by
  rintro ⟨before, e, after, rfl, -, htaken⟩
  have hids : ∀ edges : List Edge, ∀ id ∈ (edges.foldl addEdge []).map Edge.id,
      ∃ f ∈ edges, id = f.id ∨ id = placedId f := by
    intro edges
    induction edges using List.reverseRecOn with
    | nil => simp
    | append_singleton edges e ih =>
        intro id hid
        rw [List.foldl_concat, ids_addEdge, List.mem_append, List.mem_singleton] at hid
        rcases hid with hid | rfl
        · obtain ⟨f, hf, hid⟩ := ih id hid
          exact ⟨f, List.mem_append_left _ hf, hid⟩
        · refine ⟨e, by simp, ?_⟩
          split
          · exact Or.inr rfl
          · exact Or.inl rfl
  obtain ⟨f, hf, hid | hid⟩ := hids before _ htaken
  · exact hfree f (by simp [hf]) e (by simp) hid.symm
  · have hlist : e.id.toList ++ '#' :: (Nat.repr e.order).toList =
        f.id.toList ++ '#' :: (Nat.repr f.order).toList := by
      simpa [placedId] using congrArg String.toList hid
    obtain ⟨hids, horders⟩ := append_sep_inj_right hash_repr hash_repr hlist
    have hne := (List.pairwise_append.mp hplace).2.2 f hf e (List.mem_cons_self ..)
    exact hne (String.toList_inj.mp hids).symm (repr_toList_inj horders).symm

/-! ### What is drawn for a candidate -/

/-- An edge is drawn for a candidate that leads to a node. -/
structure Draws (t : Tree) (a : Candidate) (x : Nat) (e : Edge) : Prop where
  id : e.id = (t.node a.source).id ++ ":" ++ (t.node x).id ++ "::" ++ a.event
  source : e.source = (t.node a.source).id
  target : e.target = (t.node x).id
  kind : e.kind = .transition
  event : e.event = some a.event
  order : e.order = a.index

variable {i j x : Nat} {a : Candidate} {e f : Edge} {label : String}

theorem exists_transitionEdge (htarget : a.target = some label)
    (hx : t.resolveTarget a.source label = some x) :
    ∃ e, transitionEdge? t a = some e ∧ Draws t a x e := by
  unfold transitionEdge?
  rw [htarget]
  dsimp only [bind, Option.bind]
  rw [hx]
  exact ⟨_, rfl, ⟨rfl, rfl, rfl, rfl, rfl, rfl⟩⟩

theorem draws_of_transitionEdge (h : transitionEdge? t a = some e) :
    ∃ label x, a.target = some label ∧ t.resolveTarget a.source label = some x ∧
      Draws t a x e := by
  obtain ⟨label, htarget, hrest⟩ := Option.bind_eq_some_iff.mp h
  obtain ⟨x, hx, -⟩ := Option.bind_eq_some_iff.mp hrest
  obtain ⟨e', he', hdraws⟩ := exists_transitionEdge htarget hx
  rw [h] at he'
  cases he'
  exact ⟨label, x, htarget, hx, hdraws⟩

/-! ### How an id is put together -/

theorem parent_of_pointedAt (w : t.WellFormed) (h : k ∈ pointedAt t (t.node i))
    (hi : i < t.size) : t.parent k = some i := by
  unfold pointedAt at h
  rw [node_index hi] at h
  split at h
  · exact w.mem_children.mp (children_of_initialChild (Option.mem_toList.mp h))
  · exact (w.mem_regions.mp h).1
  · exact absurd h List.not_mem_nil

/-- After the id of its source, the id of an edge from a node has two more parts: that the
source is a dot and where the edge leads, or where it leads and the event, which has one more
colon before it. -/
inductive Spells (t : Tree) (i : Nat) (e : Edge) : List Char → List Char → Prop
  | initial {order child : Nat} (drawn : e = initialEdge t (t.node i) order child)
      (parent : t.parent child = some i) :
      Spells t i e "initial".toList (t.node child).id.toList
  | transition {h : Handler} {a : Candidate} {x : Nat} (handler : h ∈ (t.node i).handlers)
      (candidate : a ∈ h.candidates) (target : x < t.size) (draws : Draws t a x e) :
      Spells t i e (t.node x).id.toList (':' :: a.event.toList)

variable {M R M' R' : List Char}

theorem source_and_event (w : t.Lettered) {h : Handler} (hh : h ∈ (t.node i).handlers)
    (ha : a ∈ h.candidates) :
    a.source = i ∧ a.event = h.event ∧ a.index < h.candidates.length := by
  obtain ⟨place, hlt, hplace⟩ := List.mem_iff_getElem.mp ha
  obtain ⟨hsource, hevent, hindex⟩ := w.candidate hh (List.getElem?_eq_some_iff.mpr ⟨hlt, hplace⟩)
  exact ⟨hsource, hevent, hindex ▸ hlt⟩

theorem spells_of_initial (w : t.Lettered) (hi : i < t.size)
    (he : e ∈ (pointedAt t (t.node i)).mapIdx (initialEdge t (t.node i))) :
    ∃ child, t.parent child = some i ∧ Spells t i e "initial".toList (t.node child).id.toList := by
  obtain ⟨order, hlt, rfl⟩ := List.mem_mapIdx.mp he
  have hparent := parent_of_pointedAt w.toWellFormed (List.getElem_mem hlt) hi
  exact ⟨_, hparent, .initial rfl hparent⟩

theorem spells_of_candidate (w : t.Lettered) (hi : i < t.size)
    (ha : a ∈ (t.node i).handlers.flatMap Handler.candidates) (he : transitionEdge? t a = some e) :
    ∃ x, Draws t a x e ∧ Spells t i e (t.node x).id.toList (':' :: a.event.toList) := by
  obtain ⟨h, hh, ha⟩ := List.mem_flatMap.mp ha
  obtain ⟨label, x, _, hx, hdraws⟩ := draws_of_transitionEdge he
  rw [(source_and_event w hh ha).1] at hx
  exact ⟨x, hdraws, .transition hh ha (resolveTarget_lt hi hx) hdraws⟩

theorem exists_spells (w : t.Lettered) (hi : i < t.size) (he : e ∈ edgesOf t (t.node i)) :
    ∃ M R, Spells t i e M R := by
  rcases List.mem_append.mp he with he | he
  · obtain ⟨child, _, hspells⟩ := spells_of_initial w hi he
    exact ⟨_, _, hspells⟩
  · obtain ⟨a, ha, hedge⟩ := List.mem_filterMap.mp he
    obtain ⟨x, _, hspells⟩ := spells_of_candidate w hi ha hedge
    exact ⟨_, _, hspells⟩

namespace Spells

theorem id_eq (w : t.Lettered) (h : Spells t i e M R) :
    e.id.toList = (t.node i).id.toList ++ ':' :: (M ++ ':' :: R) := by
  cases h with
  | initial hdrawn _ => simp [hdrawn, initialEdge, markerId]
  | transition hh ha _ hdraws => simp [hdraws.id, (source_and_event w hh ha).1]

theorem colon (w : t.Lettered) (hcolon : t.Colonless) (h : Spells t i e M R) : ':' ∉ M := by
  cases h with
  | initial _ _ => decide
  | transition _ _ hx _ => exact w.colon_id hcolon _ hx

/-- **Where no key holds a colon, an id is taken apart in one way**, whatever comes after it. -/
theorem cut (w : t.Lettered) (hcolon : t.Colonless) (hi : i < t.size) (hj : j < t.size)
    (he : Spells t i e M R) (hf : Spells t j f M' R') {s s' : List Char}
    (h : e.id.toList ++ s = f.id.toList ++ s') : i = j ∧ M = M' ∧ R ++ s = R' ++ s' := by
  rw [he.id_eq w, hf.id_eq w] at h
  simp only [List.append_assoc, List.cons_append] at h
  obtain ⟨hid, hrest⟩ := append_sep_inj (w.colon_id hcolon i hi) (w.colon_id hcolon j hj) h
  obtain ⟨hmiddle, htail⟩ := append_sep_inj (he.colon w hcolon) (hf.colon w hcolon) hrest
  exact ⟨w.eq_of_id hi hj (String.toList_inj.mp hid), hmiddle, htail⟩

theorem inj (w : t.Lettered) (hcolon : t.Colonless) (hi : i < t.size) (hj : j < t.size)
    (he : Spells t i e M R) (hf : Spells t j f M' R') (h : e.id = f.id) :
    i = j ∧ M = M' ∧ R = R' := by
  have hlist : e.id.toList ++ [] = f.id.toList ++ [] := by rw [h]
  simpa using he.cut w hcolon hi hj hf hlist

end Spells

/-- No node lists an event beside one that is spelled like it with the place of one of its
candidates. -/
def Unplaced (t : Tree) : Prop :=
  ∀ i, i < t.size → ∀ h ∈ (t.node i).handlers, ∀ j, j < h.candidates.length →
    h.event ++ "#" ++ Nat.repr j ∉ (t.node i).events

instance : Decidable (Unplaced t) :=
  inferInstanceAs (Decidable (∀ i, i < t.size → ∀ h ∈ (t.node i).handlers, ∀ j,
    j < h.candidates.length → h.event ++ "#" ++ Nat.repr j ∉ (t.node i).events))

theorem placedId_toList :
    (placedId e).toList = e.id.toList ++ '#' :: (Nat.repr e.order).toList := by
  simp [placedId]

/-- Then no edge has the id of another with its place. -/
theorem id_ne_placedId (w : t.Lettered) (hcolon : t.Colonless) (hplace : Unplaced t)
    (hi : i < t.size) (hj : j < t.size) (he : e ∈ edgesOf t (t.node i))
    (hf : f ∈ edgesOf t (t.node j)) : e.id ≠ placedId f := by
  intro h
  obtain ⟨M, R, he⟩ := exists_spells w hi he
  obtain ⟨M', R', hf⟩ := exists_spells w hj hf
  have hlist : e.id.toList ++ [] = f.id.toList ++ '#' :: (Nat.repr f.order).toList := by
    rw [List.append_nil, h, placedId_toList]
  obtain ⟨rfl, _, htail⟩ := he.cut w hcolon hi hj hf hlist
  rw [List.append_nil] at htail
  cases he with
  | initial _ hchild =>
      have hhash := w.hash_id _ (lt_size_of_parent hchild)
      rw [htail] at hhash
      simp at hhash
  | @transition h a _ hh ha _ _ =>
      cases hf with
      | initial _ hchild =>
          -- the id of a node would begin with a colon
          have hlt := lt_size_of_parent hchild
          have hne : (t.node _).id.toList ≠ [] :=
            mt String.toList_eq_nil_iff.mp (w.id_ne _ hlt)
          obtain ⟨c, rest, hid⟩ := List.exists_cons_of_ne_nil hne
          rw [hid] at htail
          obtain ⟨rfl, _⟩ := List.cons.inj htail
          have hcolon := w.colon_id hcolon _ hlt
          rw [hid] at hcolon
          exact hcolon (List.mem_cons_self ..)
      | @transition h' a' _ hh' ha' _ hdraws' =>
          obtain ⟨_, hevent, _⟩ := source_and_event w hh ha
          obtain ⟨_, hevent', hindex⟩ := source_and_event w hh' ha'
          rw [hevent, hevent', hdraws'.order] at htail
          have hspelled : (h'.event ++ "#" ++ Nat.repr a'.index).toList = h.event.toList := by
            simpa using (List.cons.inj htail).2.symm
          refine hplace i hi h' hh' a'.index hindex ?_
          rw [String.toList_inj.mp hspelled]
          exact List.mem_map_of_mem hh

theorem pairwise_initialEdge {children : List Nat} {node : Node} :
    (children.mapIdx (initialEdge t node)).Pairwise fun e f =>
      e.id = f.id → e.order ≠ f.order := by
  refine List.pairwise_iff_getElem.mpr fun k l hk hl hlt _ => ?_
  rw [List.getElem_mapIdx, List.getElem_mapIdx]
  exact Nat.ne_of_lt hlt

/-- The candidates of a node differ in their event or in their place. -/
theorem pairwise_candidates (w : t.Lettered) :
    ((t.node i).handlers.flatMap Handler.candidates).Pairwise fun a b =>
      a.event = b.event → a.index ≠ b.index := by
  refine List.pairwise_flatMap.mpr ⟨fun h hh => ?_, ?_⟩
  · refine List.pairwise_iff_getElem.mpr fun k l hk hl hlt _ => ?_
    obtain ⟨_, _, hindex⟩ := w.candidate hh (List.getElem?_eq_getElem hk)
    obtain ⟨_, _, hindex'⟩ := w.candidate hh (List.getElem?_eq_getElem hl)
    rw [hindex, hindex']
    exact Nat.ne_of_lt hlt
  · refine (List.pairwise_map.mp (w.events i)).imp_of_mem ?_
    intro h h' hh hh' hne a ha b hb hevent
    rw [(source_and_event w hh ha).2.1, (source_and_event w hh' hb).2.1] at hevent
    exact absurd hevent hne

/-- Then edges with one id have different places. -/
theorem pairwise_order (w : t.Lettered) (hcolon : t.Colonless) :
    (t.nodes.toList.flatMap (edgesOf t)).Pairwise fun e f => e.id = f.id → e.order ≠ f.order := by
  rw [nodes_eq, List.flatMap_map]
  refine List.pairwise_flatMap.mpr ⟨fun i hi => ?_, ?_⟩
  · rw [List.mem_range] at hi
    refine List.pairwise_append.mpr ⟨pairwise_initialEdge, ?_, ?_⟩
    · refine List.pairwise_filterMap.mpr ((pairwise_candidates w).imp_of_mem ?_)
      intro a b ha hb hne e he f hf hid
      obtain ⟨_, hdraws, hspells⟩ := spells_of_candidate w hi ha he
      obtain ⟨_, hdraws', hspells'⟩ := spells_of_candidate w hi hb hf
      obtain ⟨_, _, hevent⟩ := hspells.inj w hcolon hi hi hspells' hid
      rw [hdraws.order, hdraws'.order]
      exact hne (String.toList_inj.mp (List.cons.inj hevent).2)
    · intro e he f hf hid
      obtain ⟨child, hchild, hspells⟩ := spells_of_initial w hi he
      obtain ⟨a, ha, hf⟩ := List.mem_filterMap.mp hf
      obtain ⟨_, _, hspells'⟩ := spells_of_candidate w hi ha hf
      obtain ⟨_, _, htail⟩ := hspells.inj w hcolon hi hi hspells' hid
      have hnone := w.colon_id hcolon child (lt_size_of_parent hchild)
      rw [htail] at hnone
      exact absurd (List.mem_cons_self ..) hnone
  · refine (List.pairwise_lt_range (n := t.size)).imp_of_mem ?_
    intro i j hi hj hlt e he f hf hid
    rw [List.mem_range] at hi hj
    obtain ⟨_, _, hspells⟩ := exists_spells w hi he
    obtain ⟨_, _, hspells'⟩ := exists_spells w hj hf
    exact absurd (hspells.inj w hcolon hi hj hspells' hid).1 (Nat.ne_of_lt hlt)

/-- Where ids differ, each of them finds what has it. -/
theorem find?_of_nodup_ids {α : Type} {id : α → String} {l : List α} (h : (l.map id).Nodup)
    {a : α} (ha : a ∈ l) : l.find? (fun b => id b == id a) = some a := by
  cases hfind : l.find? (fun b => id b == id a) with
  | none => exact absurd (beq_self_eq_true (id a)) (List.find?_eq_none.mp hfind a ha)
  | some b =>
      have hid : id b = id a :=
        beq_iff_eq.mp (List.find?_some (p := fun b => id b == id a) hfind)
      rw [List.inj_on_of_nodup_map h (List.mem_of_find?_eq_some hfind) ha hid]

/-- **The boxes and the edges of a definition that loads have different ids, so that each is
found by its own, exactly when no dot has the id of a node and no edge finds both its ids
taken.**  None does where no key holds a colon and no node lists an event beside one that is
spelled like it with a place. -/
theorem nodup_ids_ofTree {d : Definition} {c : StateConfig} {source : Json}
    (h : Definition.ofConfig c source = .ok d) :
    (((ofTree d.tree).boxes.map Box.id).Nodup ↔ ¬ Shadowed d.tree) ∧
    (((ofTree d.tree).edges.map Edge.id).Nodup ↔
      ¬ Crowded (d.tree.nodes.toList.flatMap (edgesOf d.tree))) ∧
    (¬ Shadowed d.tree → ∀ b ∈ (ofTree d.tree).boxes, (ofTree d.tree).box? b.id = some b) ∧
    (¬ Crowded (d.tree.nodes.toList.flatMap (edgesOf d.tree)) →
      ∀ e ∈ (ofTree d.tree).edges, (ofTree d.tree).edge? e.id = some e) ∧
    (d.tree.Colonless → ¬ Shadowed d.tree) ∧
    (d.tree.Colonless → Unplaced d.tree →
      ¬ Crowded (d.tree.nodes.toList.flatMap (edgesOf d.tree))) := by
  have w := lettered_of_build (Definition.build_of_ofConfig h)
  have hboxes := nodup_boxes_iff w
  have hedges : ((ofTree d.tree).edges.map Edge.id).Nodup ↔
      ¬ Crowded (d.tree.nodes.toList.flatMap (edgesOf d.tree)) := nodup_foldl_addEdge
  refine ⟨hboxes, hedges, fun hclear _ hb => find?_of_nodup_ids (hboxes.mpr hclear) hb,
    fun hclear _ he => find?_of_nodup_ids (hedges.mpr hclear) he, ?_, fun hcolon hplace => ?_⟩
  · rintro hcolon ⟨p, k, n, _, hn, _, hkey⟩
    have hnone := hcolon n (lt_size_of_parent hn)
    rw [hkey] at hnone
    simp at hnone
  · refine not_crowded (pairwise_order w hcolon) fun e he f hf => ?_
    rw [nodes_eq, List.flatMap_map] at he hf
    obtain ⟨i, hi, he⟩ := List.mem_flatMap.mp he
    obtain ⟨j, hj, hf⟩ := List.mem_flatMap.mp hf
    exact id_ne_placedId w hcolon hplace (List.mem_range.mp hi) (List.mem_range.mp hj) he hf

/-- A room with two ways out for one event, and an event that is spelled like it with a place
that it does not have. -/
def roomChart : StateConfig :=
  { StateConfig.blank with
    initial := some "in"
    states := [
      ("in", { StateConfig.blank with
        initial := some "chair"
        states := [("chair", StateConfig.blank)]
        on := [
          ("GO#2", [{ CandidateConfig.idle with target := some "out" }]),
          ("GO", [{ CandidateConfig.idle with target := some "out" },
            { CandidateConfig.idle with target := some "out" }])] }),
      ("out", StateConfig.blank)] }

/-- The ids of the room differ, and the second way out is found by the id with its place. -/
theorem nodup_ids_ofTree_roomChart : ∃ d, Definition.ofConfig roomChart .null = .ok d ∧
    ((ofTree d.tree).boxes.map Box.id).Nodup ∧ ((ofTree d.tree).edges.map Edge.id).Nodup ∧
    ((ofTree d.tree).edge? "machine.in:machine.out::GO#1").map Edge.order = some 1 := by
  obtain ⟨d, hd, h⟩ := exists_of_run (x := Definition.ofConfig roomChart .null)
    (p := fun d => decide d.tree.Colonless && decide (Unplaced d.tree) &&
      ((ofTree d.tree).edge? "machine.in:machine.out::GO#1").map Edge.order == some 1)
    (by decide +kernel)
  obtain ⟨h, hfound⟩ := Bool.and_eq_true_iff.mp h
  obtain ⟨hcolon, hplace⟩ := Bool.and_eq_true_iff.mp h
  obtain ⟨hboxes, hedges, _, _, hclear, hfree⟩ := nodup_ids_ofTree hd
  exact ⟨d, hd, hboxes.mpr (hclear (of_decide_eq_true hcolon)),
    hedges.mpr (hfree (of_decide_eq_true hcolon) (of_decide_eq_true hplace)),
    beq_iff_eq.mp hfound⟩

/-- A room beside one whose key is spelled like the dot in it, and an event that is spelled
like another one with the place of its second candidate. -/
def echoRoomChart : StateConfig :=
  { StateConfig.blank with
    initial := some "in"
    states := [
      ("in", { StateConfig.blank with
        initial := some "chair"
        states := [("chair", StateConfig.blank)]
        on := [
          ("GO#1", [{ CandidateConfig.idle with target := some "out" }]),
          ("GO", [{ CandidateConfig.idle with target := some "out" },
            { CandidateConfig.idle with target := some "out" }])] }),
      ("in:initial", StateConfig.blank),
      ("out", StateConfig.blank)] }

/-- Two boxes and two edges of one definition can share an id. -/
theorem exists_shared_ids_echoRoomChart :
    ∃ d, Definition.ofConfig echoRoomChart .null = .ok d ∧
      ¬ ((ofTree d.tree).boxes.map Box.id).Nodup ∧
      ¬ ((ofTree d.tree).edges.map Edge.id).Nodup := by
  obtain ⟨d, hd, h⟩ := exists_of_run (x := Definition.ofConfig echoRoomChart .null)
    (p := fun d => decide (¬ ((ofTree d.tree).boxes.map Box.id).Nodup) &&
      decide (¬ ((ofTree d.tree).edges.map Edge.id).Nodup)) (by decide +kernel)
  obtain ⟨hboxes, hedges⟩ := Bool.and_eq_true_iff.mp h
  exact ⟨d, hd, of_decide_eq_true hboxes, of_decide_eq_true hedges⟩

end Graph

end Statechart.View
