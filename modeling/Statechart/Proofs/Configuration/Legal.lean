/-
Configurations that a machine may be in.

`Coherent` is what every step keeps: the active nodes hang together from the root down,
and below an active compound node exactly one child is active.  `Legal` asks in addition
that every region of an active parallel node is active.  The two are kept apart because
a step may leave a coherent configuration that is not legal, and everything that can be
said of a run in general rests on coherence alone.
-/
import Mathlib.Logic.ExistsUnique
import Statechart.History
import Statechart.Proofs.Tree.Loaded

namespace Statechart

open Statechart.Tree

/-- A set of nodes that hangs together, with one child below each compound node. -/
structure Coherent (t : Tree) (C : NodeSet) : Prop where
  /-- The root is active. -/
  root : Tree.root ∈ C
  /-- Only nodes of the tree are active. -/
  inTree : ∀ i ∈ C, i < t.size
  /-- Above an active node everything is active. -/
  parent : ∀ i ∈ C, ∀ p, t.parent i = some p → p ∈ C
  /-- No history node is active. -/
  history : ∀ i ∈ C, t.isHistory i = false
  /-- An active compound node has exactly one active child. -/
  child : ∀ i ∈ C, t.kind i = .compound → ∃! c, c ∈ t.regions i ∧ c ∈ C

/-- A configuration as a machine should be in: every region of a parallel node is active. -/
structure Legal (t : Tree) (C : NodeSet) : Prop extends Coherent t C where
  /-- An active parallel node has all its regions active. -/
  regions : ∀ i ∈ C, t.kind i = .parallel → ∀ c ∈ t.regions i, c ∈ C

namespace Coherent

variable {t : Tree} {C : NodeSet} {i a b c p : Nat}

/-- Above an active node everything is active, at any distance. -/
theorem mem_of_within (h : Coherent t C) : i ∈ C → t.Within i a → a ∈ C := by
  induction i using Nat.strong_induction_on with
  | _ i ih =>
      intro hi hw
      rcases hw with rfl | hb
      · exact hi
      · obtain ⟨p, hp, hw⟩ := below_iff.mp hb
        exact ih p (lt_of_parent hp) (h.parent i hi p hp) hw

/-- Two active children of one compound node are the same. -/
theorem child_unique (h : Coherent t C) (w : t.WellFormed) (hp : t.kind p = .compound)
    (hb : t.parent b = some p) (hc : t.parent c = some p) (hbC : b ∈ C) (hcC : c ∈ C) : b = c := by
  have hpC := h.parent b hbC p hb
  exact (h.child p hpC hp).unique ⟨w.mem_regions.mpr ⟨hb, h.history b hbC⟩, hbC⟩
    ⟨w.mem_regions.mpr ⟨hc, h.history c hcC⟩, hcC⟩

end Coherent

/-- An active node with regions has an active one. -/
theorem Legal.exists_region {t : Tree} {C : NodeSet} {i : Nat} (hC : Legal t C) (hi : i ∈ C)
    (hkind : t.kind i = .compound ∨ t.kind i = .parallel)
    (hne : t.kind i = .parallel → t.regions i ≠ []) : ∃ c ∈ t.regions i, c ∈ C := by
  rcases hkind with hkind | hkind
  · obtain ⟨c, hc, _⟩ := hC.child i hi hkind
    exact ⟨c, hc.1, hc.2⟩
  · obtain ⟨c, hc⟩ := List.exists_mem_of_ne_nil _ (hne hkind)
    exact ⟨c, hc, hC.regions i hi hkind c hc⟩

/-! ### Histories -/

/-- The stores whose records were all made from configurations of one sort. -/
inductive MadeFrom (t : Tree) (P : NodeSet → Prop) : HistoryStore → Prop
  | empty : MadeFrom t P SortedMap.empty
  | record {store : HistoryStore} {config : NodeSet} (parent : Nat) (made : MadeFrom t P store)
      (from_config : P config) : MadeFrom t P (store.record t parent config)

/-- What a record says: it was made for a history child of some node. -/
structure Remembers (t : Tree) (P : NodeSet → Prop) (i : Nat) (r : HistoryRecord)
    (parent : Nat) (config : NodeSet) : Prop where
  holds : P config
  child : i ∈ t.historyChildren parent
  nodes : r.nodes = HistoryStore.remembered t r.kind parent config

namespace HistoryStore

/-- Recording for one history node leaves the records of the others alone. -/
theorem get?_recordAt {t : Tree} {parent : Nat} {config : NodeSet} {store : HistoryStore}
    {i j : Nat} {r : HistoryRecord} (h : (recordAt t parent config store i).get? j = some r) :
    store.get? j = some r ∨
      (i = j ∧ r.nodes = remembered t r.kind parent config) := by
  unfold recordAt at h
  split at h
  · rename_i kind hkind
    rw [SortedMap.get?_insert] at h
    split at h
    · rename_i hij
      cases h
      exact Or.inr ⟨hij, rfl⟩
    · exact Or.inl h
  · exact Or.inl h

theorem get?_record {t : Tree} {parent : Nat} {config : NodeSet} {store : HistoryStore}
    {j : Nat} {r : HistoryRecord} (h : (store.record t parent config).get? j = some r) :
    store.get? j = some r ∨
      (j ∈ t.historyChildren parent ∧ r.nodes = remembered t r.kind parent config) := by
  unfold record at h
  generalize t.historyChildren parent = l at h ⊢
  induction l generalizing store with
  | nil => exact Or.inl h
  | cons i rest ih =>
      rw [List.foldl_cons] at h
      rcases ih h with h | ⟨hmem, hnodes⟩
      · rcases get?_recordAt h with h | ⟨rfl, hnodes⟩
        · exact Or.inl h
        · exact Or.inr ⟨List.mem_cons_self .., hnodes⟩
      · exact Or.inr ⟨List.mem_cons_of_mem _ hmem, hnodes⟩

/-- Recording for one history node writes its record. -/
theorem get?_recordAt_of_kind {t : Tree} {parent : Nat} {config : NodeSet} {store : HistoryStore}
    {i j : Nat} {kind : HistoryKind} (hkind : t.kind j = .history kind) :
    (recordAt t parent config store i).get? j =
      if i = j then some ⟨kind, remembered t kind parent config⟩ else store.get? j := by
  unfold recordAt
  split
  · rename_i kind' hkind'
    rw [SortedMap.get?_insert]
    refine if_ctx_congr Iff.rfl (fun hij => ?_) fun _ => rfl
    rw [← hij, hkind'] at hkind
    cases hkind
    rfl
  · rename_i hother
    rw [if_neg]
    rintro rfl
    exact hother kind hkind

/-- What a history node remembers after its parent, or another node, has been recorded. -/
theorem get?_record_of_kind {t : Tree} {parent : Nat} {config : NodeSet} {store : HistoryStore}
    {j : Nat} {kind : HistoryKind} (hkind : t.kind j = .history kind) :
    (store.record t parent config).get? j =
      if j ∈ t.historyChildren parent then some ⟨kind, remembered t kind parent config⟩
      else store.get? j := by
  unfold record
  generalize t.historyChildren parent = l
  induction l generalizing store with
  | nil => rfl
  | cons i rest ih =>
      rw [List.foldl_cons, ih, get?_recordAt_of_kind hkind]
      by_cases hrest : j ∈ rest
      · rw [if_pos hrest, if_pos (List.mem_cons_of_mem _ hrest)]
      · rw [if_neg hrest]
        refine if_congr ?_ rfl rfl
        rw [List.mem_cons, or_iff_left hrest, eq_comm]

/-- Recording for a node leaves the records alone that belong to other nodes. -/
theorem get?_record_of_not_mem {t : Tree} {parent : Nat} {config : NodeSet} {store : HistoryStore}
    {j : Nat} (h : j ∉ t.historyChildren parent) :
    (store.record t parent config).get? j = store.get? j := by
  unfold record
  generalize t.historyChildren parent = l at h
  induction l generalizing store with
  | nil => rfl
  | cons i rest ih =>
      rw [List.mem_cons, not_or] at h
      rw [List.foldl_cons, ih h.2, recordAt]
      split
      · rw [SortedMap.get?_insert, if_neg (Ne.symm h.1)]
      · rfl

/-- What a history node remembers after several nodes have been recorded: the configuration,
if its parent is one of them. -/
theorem get?_recordAll {t : Tree} {parent : Nat} {config : NodeSet} {l : List Nat} {j : Nat}
    {kind : HistoryKind} (hkind : t.kind j = .history kind)
    (hparent : ∀ i, j ∈ t.historyChildren i ↔ i = parent) : ∀ {store : HistoryStore},
      (l.foldl (fun store i => store.record t i config) store).get? j =
        if parent ∈ l then some ⟨kind, remembered t kind parent config⟩ else store.get? j := by
  induction l with
  | nil => exact rfl
  | cons i rest ih =>
      intro store
      rw [List.foldl_cons, ih, get?_record_of_kind hkind]
      by_cases hrest : parent ∈ rest
      · rw [if_pos hrest, if_pos (List.mem_cons_of_mem _ hrest)]
      · rw [if_neg hrest]
        refine if_ctx_congr ?_ (fun hi => ?_) fun _ => rfl
        · rw [hparent, List.mem_cons, or_iff_left hrest, eq_comm]
        · rw [List.mem_cons, or_iff_left hrest] at hi
          rw [hi]

/-- A record stays as it is when none of the nodes that are recorded owns it. -/
theorem get?_recordAll_of_not_mem {t : Tree} {config : NodeSet} {l : List Nat} {j : Nat}
    (h : ∀ i ∈ l, j ∉ t.historyChildren i) : ∀ {store : HistoryStore},
      (l.foldl (fun store i => store.record t i config) store).get? j = store.get? j := by
  induction l with
  | nil => exact rfl
  | cons i rest ih =>
      intro store
      rw [List.foldl_cons, ih fun i hi => h i (List.mem_cons_of_mem _ hi),
        get?_record_of_not_mem (h i (List.mem_cons_self ..))]

end HistoryStore

namespace MadeFrom

variable {t : Tree} {P Q : NodeSet → Prop} {store : HistoryStore} {i : Nat} {r : HistoryRecord}

/-- Every record of such a store was made from such a configuration. -/
theorem remembers (h : MadeFrom t P store) (hr : store.get? i = some r) :
    ∃ parent config, Remembers t P i r parent config := by
  induction h with
  | empty => rw [SortedMap.get?_empty] at hr; cases hr
  | record parent _ hconfig ih =>
      rcases HistoryStore.get?_record hr with hr | ⟨hchild, hnodes⟩
      · exact ih hr
      · exact ⟨parent, _, hconfig, hchild, hnodes⟩

theorem mono (h : MadeFrom t P store) (hPQ : ∀ C, P C → Q C) : MadeFrom t Q store := by
  induction h with
  | empty => exact .empty
  | record parent _ hconfig ih => exact .record parent ih (hPQ _ hconfig)

/-- Recording for several nodes from one configuration. -/
theorem recordAll (h : MadeFrom t P store) {config : NodeSet} (hP : P config) (l : List Nat) :
    MadeFrom t P (l.foldl (fun store i => store.record t i config) store) := by
  induction l generalizing store with
  | nil => exact h
  | cons i rest ih => exact ih (h.record i hP)

end MadeFrom

end Statechart
