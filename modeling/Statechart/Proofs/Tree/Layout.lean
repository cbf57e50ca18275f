/-
A draft, and where its nodes stand in the tree.

`Draft.nodes` lays a draft out in document order, in one list.  `Stands` says of a tree
what that list says of the array: the node with a number is the head of a draft, and
the drafts below it stand behind it, one after the other.  `stands_toTree` is the only
place that looks at the list; whatever a tree owes to the draft it came from is read
off `Stands` by induction on the draft.

The shape of the tree follows at once: a node is among the children of another exactly
when that one is its parent, and every node but the first has a parent.
-/
import Mathlib.Data.Nat.Init
import Statechart.Tree.Build

namespace Statechart.Draft

variable {t : Tree} {i p depth : Nat} {parent : Option Nat} {d : Draft}

/-- The node of a draft itself, with its number and what it knows of its place. -/
def head (i : Nat) (parent : Option Nat) (depth : Nat) (d : Draft) : Node where
  index := i
  id := d.id
  key := d.key
  givenId := d.givenId
  kind := d.kind
  parent := parent
  children := starts (i + 1) d.children
  initial := d.initial
  entry := d.entry
  exit := d.exit
  depth := depth
  handlers := handlersAt i d.handlers

mutual

/-- The nodes of a draft stand in the tree from a number on. -/
def Stands (t : Tree) (i : Nat) (parent : Option Nat) (depth : Nat) : Draft → Prop
  | ⟨id, key, givenId, kind, initial, entry, exit, handlers, children⟩ =>
      (i < t.size ∧ t.node i = head i parent depth
        ⟨id, key, givenId, kind, initial, entry, exit, handlers, children⟩) ∧
      StandAll t (i + 1) i (depth + 1) children

/-- The nodes of some drafts with one parent stand in the tree from a number on. -/
def StandAll (t : Tree) (i parent depth : Nat) : List Draft → Prop
  | [] => True
  | d :: rest => Stands t i (some parent) depth d ∧ StandAll t (i + d.size) parent depth rest

end

theorem Stands.head (h : Stands t i parent depth d) :
    i < t.size ∧ t.node i = Draft.head i parent depth d := by
  cases d
  exact h.1

theorem Stands.children (h : Stands t i parent depth d) :
    StandAll t (i + 1) i (depth + 1) d.children := by
  cases d
  exact h.2

/-! ### Laid out, a draft stands -/

/-- A list of nodes stands in the tree from a number on. -/
def Segment (t : Tree) (i : Nat) (l : List Node) : Prop :=
  ∀ k n, l[k]? = some n → t.node? (i + k) = some n

theorem Segment.tail {n : Node} {l : List Node} (h : Segment t i (n :: l)) :
    Segment t (i + 1) l := by
  intro k m hk
  have := h (k + 1) m (by rwa [List.getElem?_cons_succ])
  rwa [show i + 1 + k = i + (k + 1) by omega]

theorem Segment.left {l m : List Node} (h : Segment t i (l ++ m)) : Segment t i l := by
  intro k n hk
  have hlt : k < l.length := (List.getElem?_eq_some_iff.mp hk).1
  exact h k n (by rwa [List.getElem?_append_left hlt])

theorem Segment.right {l m : List Node} (h : Segment t i (l ++ m)) :
    Segment t (i + l.length) m := by
  intro k n hk
  have := h (l.length + k) n (by rwa [List.getElem?_append_right (by omega),
    show l.length + k - l.length = k by omega])
  rwa [show i + l.length + k = i + (l.length + k) by omega]

mutual

theorem stands_of_segment (i : Nat) (parent : Option Nat) (depth : Nat) :
    ∀ d : Draft, Segment t i (nodes i parent depth d) → Stands t i parent depth d
  | ⟨id, key, givenId, kind, initial, entry, exit, handlers, children⟩, h => by
      have hnode := h 0 _ (by rw [nodes, List.getElem?_cons_zero])
      rw [Nat.add_zero] at hnode
      refine ⟨⟨?_, ?_⟩, standAll_of_segment (i + 1) i (depth + 1) children (by
        rw [nodes] at h; exact h.tail)⟩
      · exact (Array.getElem?_eq_some_iff.mp hnode).1
      · rw [Tree.node, hnode]
        rfl

theorem standAll_of_segment (i parent depth : Nat) :
    ∀ ds : List Draft, Segment t i (allNodes i parent depth ds) → StandAll t i parent depth ds
  | [], _ => trivial
  | d :: rest, h => by
      rw [allNodes] at h
      refine ⟨stands_of_segment i (some parent) depth d h.left,
        standAll_of_segment (i + d.size) parent depth rest ?_⟩
      have := h.right
      rwa [length_nodes] at this

end

theorem stands_toTree (d : Draft) : Stands d.toTree 0 none 0 d := by
  refine stands_of_segment 0 none 0 d fun k n hk => ?_
  rw [Nat.zero_add]
  show (nodes 0 none 0 d).toArray[k]? = some n
  rwa [List.getElem?_toArray]

theorem size_toTree (d : Draft) : d.toTree.size = d.size := by
  show (nodes 0 none 0 d).toArray.size = d.size
  rw [List.size_toArray, length_nodes]

/-! ### From a number to its draft

Every number in the stretch of a draft is that of the draft itself or lies in the
stretch of one below it.  Facts that a draft passes on to the drafts below it are thus
facts of every node.
-/

theorem sizes_children (d : Draft) : d.size = sizes d.children + 1 := by
  cases d
  rfl

/-- The drafts in a list stand where their numbers are. -/
theorem StandAll.get : ∀ {ds : List Draft} {i : Nat}, StandAll t i p depth ds →
    ∀ {k : Nat} {c : Draft}, ds[k]? = some c →
      ∃ j, (starts i ds)[k]? = some j ∧ Stands t j (some p) depth c := by
  intro ds
  induction ds with
  | nil => intro i _ k c hk; simp at hk
  | cons d rest ih =>
      intro i h k c hk
      cases k with
      | zero =>
          rw [List.getElem?_cons_zero] at hk
          cases hk
          exact ⟨i, by rw [starts, List.getElem?_cons_zero], h.1⟩
      | succ k =>
          rw [List.getElem?_cons_succ] at hk
          obtain ⟨j, hj, hstands⟩ := ih h.2 hk
          exact ⟨j, by rw [starts, List.getElem?_cons_succ]; exact hj, hstands⟩

theorem length_starts : ∀ (ds : List Draft) (i : Nat), (starts i ds).length = ds.length := by
  intro ds
  induction ds with
  | nil => intro i; rfl
  | cons d rest ih => intro i; simp [starts, ih]

/-- A child that the tree knows is one of the drafts below. -/
theorem Stands.get_child {j : Nat} (h : Stands t i parent depth d) (hj : j ∈ t.children i) :
    ∃ (k : Nat) (c : Draft), d.children[k]? = some c ∧
      (starts (i + 1) d.children)[k]? = some j ∧ Stands t j (some i) (depth + 1) c := by
  rw [Tree.children, h.head.2] at hj
  obtain ⟨k, hk⟩ := List.mem_iff_getElem?.mp hj
  have hlt : k < (starts (i + 1) d.children).length := (List.getElem?_eq_some_iff.mp hk).1
  rw [length_starts] at hlt
  have hc : d.children[k]? = some d.children[k] := List.getElem?_eq_getElem hlt
  obtain ⟨j', hj', hstands⟩ := h.children.get hc
  have heq : some j' = some j := hj'.symm.trans hk
  cases heq
  exact ⟨k, _, hc, hk, hstands⟩

/-- A number in the stretch of some drafts lies in that of one of them. -/
theorem exists_starts : ∀ (ds : List Draft) (i j : Nat), i ≤ j → j < i + sizes ds →
    ∃ (k s : Nat) (c : Draft), ds[k]? = some c ∧ (starts i ds)[k]? = some s ∧
      s ≤ j ∧ j < s + c.size := by
  intro ds
  induction ds with
  | nil => intro i j h h'; simp only [sizes] at h'; omega
  | cons d rest ih =>
      intro i j h h'
      simp only [sizes] at h'
      by_cases hj : j < i + d.size
      · exact ⟨0, i, d, rfl, rfl, h, hj⟩
      · obtain ⟨k, s, c, hk, hs, hle, hlt⟩ := ih (i + d.size) j (by omega) (by omega)
        exact ⟨k + 1, s, c, by rwa [List.getElem?_cons_succ],
          by rwa [starts, List.getElem?_cons_succ], hle, hlt⟩

/-- The numbers of the drafts in a list go up. -/
theorem pairwise_starts : ∀ (ds : List Draft) (i : Nat), (starts i ds).Pairwise (· < ·) := by
  intro ds
  induction ds with
  | nil => intro i; exact List.Pairwise.nil
  | cons d rest ih =>
      intro i
      rw [starts, List.pairwise_cons]
      refine ⟨fun c hc => ?_, ih _⟩
      have := (mem_starts hc).1
      have := d.size_pos
      omega

theorem size_le_of_mem : ∀ {ds : List Draft} {c : Draft}, c ∈ ds → c.size ≤ sizes ds := by
  intro ds
  induction ds with
  | nil => intro c hc; exact absurd hc List.not_mem_nil
  | cons d rest ih =>
      intro c hc
      rw [sizes]
      rcases List.mem_cons.mp hc with rfl | hc
      · omega
      · have := ih hc
        omega

/-- A number in the stretch of a draft has a draft of its own, which shares what every
draft passes on to those below it.  Other than the first it has a parent in the
stretch, among whose children it is. -/
theorem Stands.find {P : Draft → Prop} (hP : ∀ d, P d → ∀ c ∈ d.children, P c) :
    ∀ (n : Nat) {d : Draft} {i depth : Nat} {parent : Option Nat}, d.size = n →
      Stands t i parent depth d → P d → ∀ j, i ≤ j → j < i + d.size →
        ∃ d' parent' depth', Stands t j parent' depth' d' ∧ P d' ∧
          (j = i → parent' = parent) ∧
          (j ≠ i → ∃ p, parent' = some p ∧ j ∈ t.children p) := by
  intro n
  induction n using Nat.strong_induction_on with
  | _ n ih =>
      intro d i depth parent hn h hd j hij hj
      by_cases hji : j = i
      · subst hji
        exact ⟨d, parent, depth, h, hd, fun _ => rfl, fun h => absurd rfl h⟩
      · rw [sizes_children] at hj
        obtain ⟨k, s, c, hk, hs, hle, hlt⟩ :=
          exists_starts d.children (i + 1) j (by omega) (by omega)
        obtain ⟨s', hs', hc⟩ := h.children.get hk
        rw [hs] at hs'
        cases hs'
        have hmem : c ∈ d.children := List.mem_of_getElem? hk
        have hsize : c.size < n := by
          have := size_le_of_mem hmem
          rw [← hn, sizes_children d]
          omega
        obtain ⟨d', parent', depth', hd', hPd', hself, hbelow⟩ :=
          ih c.size hsize rfl hc (hP d hd c hmem) j hle hlt
        refine ⟨d', parent', depth', hd', hPd', fun h => absurd h hji, fun _ => ?_⟩
        by_cases hjs : j = s
        · refine ⟨i, hself hjs, ?_⟩
          rw [Tree.children, h.head.2, hjs]
          exact List.mem_of_getElem? hs
        · exact hbelow hjs

end Statechart.Draft
