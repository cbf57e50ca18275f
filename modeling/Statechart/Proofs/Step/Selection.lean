/-
What is selected for an event.

Two facts about a selection carry every proof about steps.  Each selected candidate
stands at a node that is active, at or above an active leaf (`Proposed`), because only
active leaves propose.  And the domains of two selected candidates are `Apart`: the
selection keeps two candidates only if no active node would be exited by both, and since
every domain has something active below it, domains in one line would share an exit.

A selection fails only where a guard fails.  The targets that it looks up are those of
the tree, which were checked when the tree was loaded.
-/
import Statechart.Proofs.Configuration.Legal
import Statechart.Proofs.Outcome
import Statechart.Step.Selection

namespace Statechart

open Statechart.Tree Outcome

variable {t : Tree} {config : NodeSet} {name : String} {c : Candidate}

/-- A candidate that an active leaf may propose for an event. -/
def Proposed (t : Tree) (config : NodeSet) (name : String) (c : Candidate) : Prop :=
  ∃ leaf ∈ config, t.isLeaf leaf = true ∧
    ∃ n, t.Within leaf n ∧ c ∈ (t.node n).candidates name

/-- A candidate moves: its target and its domain. -/
structure Moves (t : Tree) (c : Candidate) (x D : Nat) : Prop where
  target : ∃ label, c.target = some label ∧ t.targetOf c label = .ok x
  domain : D = t.domain c x

theorem targetOf_eq_ok {label : String} {x : Nat} (h : t.targetOf c label = .ok x) :
    t.resolveTarget c.source label = some x := by
  unfold targetOf at h
  split at h
  · rename_i i hi
    cases h
    exact hi
  · cases h

namespace Proposed

/-- The source of a candidate that is proposed is active. -/
theorem source (w : t.WellFormed) (hC : Coherent t config) (h : Proposed t config name c) :
    c.source ∈ config ∧ ∃ leaf ∈ config, t.isLeaf leaf = true ∧ t.Within leaf c.source := by
  obtain ⟨leaf, hleaf, hisLeaf, n, hn, hc⟩ := h
  rw [w.source hc]
  exact ⟨hC.mem_of_within hleaf hn, leaf, hleaf, hisLeaf, hn⟩

/-- The target of a candidate that is proposed names a node. -/
theorem exists_target (w : t.WellFormed) (h : Proposed t config name c) {label : String}
    (hlabel : c.target = some label) : ∃ x, t.targetOf c label = .ok x := by
  obtain ⟨_, _, _, n, _, hc⟩ := h
  obtain ⟨x, hx⟩ := w.target hc hlabel
  refine ⟨x, ?_⟩
  rw [targetOf, w.source hc, hx]

end Proposed

/-! ### Domains -/

/-- A domain is the source itself, with the target below it, or a node above the source,
with the target below it, or the root. -/
theorem domain_cases (t : Tree) (c : Candidate) (x : Nat) :
    (t.domain c x = c.source ∧ t.Below x c.source) ∨
      (t.Below c.source (t.domain c x) ∧ t.kind (t.domain c x) = .compound ∧
        t.Below x (t.domain c x)) ∨
      t.domain c x = Tree.root := by
  unfold domain
  extract_lets fromSource
  by_cases h : (fromSource && t.isDescendant x c.source) = true
  · rw [if_pos h]
    rw [Bool.and_eq_true, isDescendant_iff] at h
    exact Or.inl ⟨rfl, h.2⟩
  · rw [if_neg h]
    right
    cases hfind : (t.ancestors c.source).find?
        fun a => t.kind a == .compound && t.isDescendant x a with
    | none => exact Or.inr rfl
    | some a =>
        have hfound := List.find?_some
          (p := fun a => t.kind a == .compound && t.isDescendant x a) hfind
        rw [Bool.and_eq_true, beq_iff_eq, isDescendant_iff] at hfound
        exact Or.inl ⟨List.mem_of_find?_eq_some hfind, hfound⟩

namespace Moves

variable {x D : Nat}

theorem inTree (w : t.WellFormed) (hC : Coherent t config) (hc : Proposed t config name c)
    (h : Moves t c x D) : x < t.size := by
  obtain ⟨label, _, hx⟩ := h.target
  exact resolveTarget_lt (hC.inTree _ (hc.source w hC).1) (targetOf_eq_ok hx)

theorem domain_mem (w : t.WellFormed) (hC : Coherent t config) (hc : Proposed t config name c)
    (h : Moves t c x D) : D ∈ config := by
  have hsource := (hc.source w hC).1
  rw [h.domain]
  rcases domain_cases t c x with ⟨hD, _⟩ | ⟨hD, _⟩ | hD
  · rwa [hD]
  · exact hC.mem_of_within hsource hD.within
  · rw [hD]
    exact hC.root

/-- The target is below the domain; only the root may be both. -/
theorem under (w : t.WellFormed) (hC : Coherent t config) (hc : Proposed t config name c)
    (h : Moves t c x D) : t.Below x D ∨ (x = Tree.root ∧ D = Tree.root) := by
  have hx := w.within_root (h.inTree w hC hc)
  rw [h.domain]
  rcases domain_cases t c x with ⟨hD, hb⟩ | ⟨_, _, hb⟩ | hD
  · rw [hD]
    exact Or.inl hb
  · exact Or.inl hb
  · rw [hD]
    rcases hx with hx | hx
    · exact Or.inr ⟨hx, rfl⟩
    · exact Or.inl hx

/-- Below a domain something is active, unless nothing at all lies below any node. -/
theorem exists_active (w : t.WellFormed) (hC : Coherent t config)
    (hc : Proposed t config name c) (h : Moves t c x D) {i a : Nat} (hb : t.Below i a) :
    ∃ j ∈ config, t.Below j D := by
  obtain ⟨hsource, leaf, hleaf, hisLeaf, hw⟩ := hc.source w hC
  have hbelow : t.Below leaf D ∨ leaf = D := by
    rw [h.domain]
    rcases domain_cases t c x with ⟨hD, _⟩ | ⟨hD, _⟩ | hD
    · rw [hD]
      exact hw.symm.imp_right id
    · exact Or.inl (hw.below hD)
    · rw [hD]
      exact (w.within_root (hC.inTree leaf hleaf)).symm.imp_right id
  rcases hbelow with hbelow | rfl
  · exact ⟨leaf, hleaf, hbelow⟩
  · -- the domain is itself the leaf, so that it can only be a root without children
    exfalso
    have hempty : ∀ j, ¬ t.Below j leaf := fun j hj => by
      rw [w.isLeaf_of_below hj] at hisLeaf
      cases hisLeaf
    rcases h.under w hC hc with hx | ⟨_, hD⟩
    · exact hempty x hx
    · obtain ⟨p, hp, _⟩ := below_iff.mp hb
      rcases w.within_root (lt_size_of_parent hp) with rfl | hi
      · exact not_below_of_no_parent w.root_parent hb
      · rw [← hD] at hi
        exact hempty i hi

end Moves

/-! ### Conflicts -/

/-- Two candidates without a common exit have domains in no line. -/
theorem apart_of_disjoint (w : t.WellFormed) (hC : Coherent t config) {a b : Candidate}
    (ha : Proposed t config name a) (hb : Proposed t config name b) {x y D F : Nat}
    (hD : Moves t a x D) (hF : Moves t b y F)
    (hdisjoint : ∀ j ∈ config, t.Below j D → ¬ t.Below j F) : t.Apart D F := by
  intro i hiD hiF
  rcases hiD.comparable hiF.within with h | h
  · obtain ⟨j, hj, hjD⟩ := hD.exists_active w hC ha hiF
    exact hdisjoint j hj hjD (hjD.below h)
  · obtain ⟨j, hj, hjF⟩ := hF.exists_active w hC hb hiF
    exact hdisjoint j hj (hjF.below h) hjF

theorem mem_activeBelow {i D : Nat} : i ∈ t.activeBelow config D ↔ i ∈ config ∧ t.Below i D := by
  rw [activeBelow, SortedSet.mem_filter, isDescendant_iff]

/-- What a candidate exits. -/
theorem exitSet_of_moves {x D : Nat} (h : Moves t c x D) :
    t.exitSet config c = .ok (t.activeBelow config D) := by
  obtain ⟨label, hlabel, hx⟩ := h.target
  unfold exitSet
  simp only [hlabel, h.domain]
  exact bind_eq_ok.mpr ⟨x, hx, rfl⟩

/-- A candidate that is proposed has an exit set. -/
theorem Proposed.exists_exitSet (w : t.WellFormed) (h : Proposed t config name c) :
    ∃ exits, t.exitSet config c = .ok exits := by
  cases hlabel : c.target with
  | none => exact ⟨SortedSet.empty, by rw [exitSet, hlabel]⟩
  | some label =>
      obtain ⟨x, hx⟩ := h.exists_target w hlabel
      exact ⟨_, exitSet_of_moves ⟨⟨label, hlabel, hx⟩, rfl⟩⟩

namespace Selection

/-! ### Proposals -/

variable {scope : GuardScope}

theorem firstEnabled_mem {l : List Candidate} (h : firstEnabled scope l = .ok (some c)) :
    c ∈ l := by
  induction l with
  | nil => cases h
  | cons a rest ih =>
      rw [firstEnabled] at h
      obtain ⟨b, _, h⟩ := bind_eq_ok.mp h
      cases b with
      | true => cases h; exact List.mem_cons_self ..
      | false => exact List.mem_cons_of_mem _ (ih h)

/-- Only a guard stops the search for an enabled candidate. -/
theorem firstEnabled_error {l : List Candidate} {e : Error}
    (h : firstEnabled scope l = .error e) : ∃ f, e = .guard f := by
  induction l with
  | nil => cases h
  | cons a rest ih =>
      rw [firstEnabled] at h
      rcases bind_eq_error.mp h with h | ⟨b, _, h⟩
      · unfold enabled at h
        split at h
        · cases h
        · cases h
          exact ⟨_, rfl⟩
      · cases b with
        | true => cases h
        | false => exact ih h

theorem propose_proposed {proposed proposed' : List Candidate} {leaf : Nat}
    (hleaf : leaf ∈ config) (hisLeaf : t.isLeaf leaf = true)
    (hproposed : ∀ c ∈ proposed, Proposed t config name c)
    (h : propose t scope name proposed leaf = .ok proposed') :
    ∀ c ∈ proposed', Proposed t config name c := by
  unfold propose at h
  obtain ⟨found, hfound, h⟩ := bind_eq_ok.mp h
  cases found with
  | none => cases h; exact hproposed
  | some c =>
      dsimp only at h
      split at h
      · cases h; exact hproposed
      · cases h
        intro b hb
        rcases List.mem_append.mp hb with hb | hb
        · exact hproposed b hb
        · rw [List.mem_singleton.mp hb]
          obtain ⟨n, hn, hc⟩ := List.mem_flatMap.mp (firstEnabled_mem hfound)
          refine ⟨leaf, hleaf, hisLeaf, n, ?_, hc⟩
          rcases List.mem_cons.mp hn with rfl | hn
          · exact within_self
          · exact Below.within hn

theorem proposals_proposed {proposed : List Candidate}
    (h : proposals t scope name config = .ok proposed) :
    ∀ c ∈ proposed, Proposed t config name c := by
  refine foldlM_keeps (P := fun l => ∀ c ∈ l, Proposed t config name c) ?_ (by simp) h
  intro l leaf hmem l' hl hstep
  obtain ⟨hleaf, hisLeaf⟩ := List.mem_filter.mp hmem
  exact propose_proposed hleaf hisLeaf hl hstep

/-! ### What is kept of them -/

/-- What holds of the proposals that are kept: no two of them exit the same node. -/
structure Kept (t : Tree) (config : NodeSet) (name : String)
    (kept : List (Candidate × NodeSet)) : Prop where
  proposed : ∀ k ∈ kept, Proposed t config name k.1
  exits : ∀ k ∈ kept, t.exitSet config k.1 = .ok k.2
  disjoint : kept.Pairwise fun a b => ∀ i ∈ a.2, i ∉ b.2

theorem Kept.keep {kept kept' : List (Candidate × NodeSet)} (hk : Kept t config name kept)
    (hc : Proposed t config name c) (h : Selection.keep t config kept c = .ok kept') :
    Kept t config name kept' := by
  unfold Selection.keep at h
  obtain ⟨exits, hexits, h⟩ := bind_eq_ok.mp h
  dsimp only at h
  split at h
  · cases h
    refine ⟨?_, ?_, ?_⟩
    · intro k hmem
      rcases List.mem_append.mp hmem with hmem | hmem
      · exact hk.proposed k (List.mem_filter.mp hmem).1
      · rwa [List.mem_singleton.mp hmem]
    · intro k hmem
      rcases List.mem_append.mp hmem with hmem | hmem
      · exact hk.exits k (List.mem_filter.mp hmem).1
      · rwa [List.mem_singleton.mp hmem]
    · refine List.pairwise_append.mpr ⟨hk.disjoint.filter _, List.pairwise_singleton _ _, ?_⟩
      intro k hmem b hb i hi hib
      rw [List.mem_singleton.mp hb] at hib
      exact SortedSet.disjoint_iff.mp (List.mem_filter.mp hmem).2 i hib hi
  · cases h
    exact hk

/-- What holds of the candidates that an event takes. -/
structure Selected (t : Tree) (config : NodeSet) (name : String) (selected : List Candidate) :
    Prop where
  proposed : ∀ c ∈ selected, Proposed t config name c
  /-- The domains of two of them are in no line. -/
  apart : selected.Pairwise fun a b => ∀ x y D F, Moves t a x D → Moves t b y F →
    t.Apart D F ∧ t.Apart F D

theorem Kept.selected (w : t.WellFormed) (hC : Coherent t config)
    {kept : List (Candidate × NodeSet)} (hk : Kept t config name kept) :
    Selected t config name (kept.map Prod.fst) := by
  refine ⟨?_, List.pairwise_map.mpr (hk.disjoint.imp_of_mem ?_)⟩
  · intro c hc
    obtain ⟨k, hmem, rfl⟩ := List.mem_map.mp hc
    exact hk.proposed k hmem
  · intro a b ha hb hdisjoint x y D F hD hF
    have hexitsD : a.2 = t.activeBelow config D :=
      Except.ok.inj ((hk.exits a ha).symm.trans (exitSet_of_moves hD))
    have hexitsF : b.2 = t.activeBelow config F :=
      Except.ok.inj ((hk.exits b hb).symm.trans (exitSet_of_moves hF))
    have hnone : ∀ j ∈ config, t.Below j D → ¬ t.Below j F := by
      intro j hj hjD hjF
      refine hdisjoint j ?_ ?_
      · rw [hexitsD]
        exact mem_activeBelow.mpr ⟨hj, hjD⟩
      · rw [hexitsF]
        exact mem_activeBelow.mpr ⟨hj, hjF⟩
    have ha' := hk.proposed a ha
    have hb' := hk.proposed b hb
    exact ⟨apart_of_disjoint w hC ha' hb' hD hF hnone,
      apart_of_disjoint w hC hb' ha' hF hD fun j hj hjF hjD => hnone j hj hjD hjF⟩

/-- What is selected is kept of the proposals, in any configuration. -/
theorem kept_of_select {selected : List Candidate}
    (h : select t scope name config = .ok selected) :
    ∃ kept, Kept t config name kept ∧ selected = kept.map Prod.fst := by
  obtain ⟨proposed, hproposed, h⟩ := bind_eq_ok.mp h
  obtain ⟨kept, hkept, h⟩ := bind_eq_ok.mp h
  cases h
  have hall := proposals_proposed hproposed
  refine ⟨kept, foldlM_keeps (P := Kept t config name) ?_ ?_ hkept, rfl⟩
  · intro l c hc l' hl hstep
    exact hl.keep (hall c hc) hstep
  · exact ⟨by simp, by simp, List.Pairwise.nil⟩

theorem proposed_of_select {selected : List Candidate}
    (h : select t scope name config = .ok selected) (hc : c ∈ selected) :
    Proposed t config name c := by
  obtain ⟨kept, hkept, rfl⟩ := kept_of_select h
  obtain ⟨k, hk, rfl⟩ := List.mem_map.mp hc
  exact hkept.proposed k hk

/-- **What is selected is proposed by active leaves, and the domains are apart.** -/
theorem selected_of_select (w : t.WellFormed) (hC : Coherent t config)
    {selected : List Candidate} (h : select t scope name config = .ok selected) :
    Selected t config name selected := by
  obtain ⟨kept, hkept, rfl⟩ := kept_of_select h
  exact hkept.selected w hC

/-! ### What can fail -/

theorem proposals_error {e : Error} (h : proposals t scope name config = .error e) :
    ∃ f, e = .guard f := by
  unfold proposals at h
  generalize config.toList.filter t.isLeaf = leaves at h
  generalize ([] : List Candidate) = proposed at h
  induction leaves generalizing proposed with
  | nil => cases h
  | cons leaf rest ih =>
      rw [List.foldlM_cons] at h
      rcases bind_eq_error.mp h with h | ⟨_, _, h⟩
      · rcases bind_eq_error.mp h with h | ⟨found, _, h⟩
        · exact firstEnabled_error h
        · cases found <;> cases h
      · exact ih _ h

theorem exists_keep (w : t.WellFormed) {kept : List (Candidate × NodeSet)}
    (hc : Proposed t config name c) : ∃ kept', keep t config kept c = .ok kept' := by
  obtain ⟨exits, hexits⟩ := hc.exists_exitSet w
  unfold keep
  rw [hexits]
  dsimp only [bind, Except.bind]
  split
  · exact ⟨_, rfl⟩
  · exact ⟨_, rfl⟩

theorem exists_resolve (w : t.WellFormed) {proposed : List Candidate}
    (h : ∀ c ∈ proposed, Proposed t config name c) :
    ∃ selected, resolve t config proposed = .ok selected := by
  have hfold : ∀ kept, ∃ kept', proposed.foldlM (keep t config) kept = .ok kept' := by
    induction proposed with
    | nil => intro kept; exact ⟨kept, rfl⟩
    | cons c rest ih =>
        intro kept
        obtain ⟨kept', hkept⟩ : ∃ kept', keep t config kept c = .ok kept' :=
          exists_keep w (h c (List.mem_cons_self ..))
        obtain ⟨final, hfinal⟩ := ih (fun b hb => h b (List.mem_cons_of_mem _ hb)) kept'
        refine ⟨final, ?_⟩
        rw [List.foldlM_cons]
        exact bind_eq_ok.mpr ⟨kept', hkept, hfinal⟩
  obtain ⟨kept, hkept⟩ := hfold []
  exact ⟨kept.map Prod.fst, bind_eq_ok.mpr ⟨kept, hkept, rfl⟩⟩

/-- **A selection fails only where a guard fails.** -/
theorem select_error (w : t.WellFormed) {e : Error} (h : select t scope name config = .error e) :
    ∃ f, e = .guard f := by
  rcases bind_eq_error.mp h with h | ⟨proposed, hproposed, h⟩
  · exact proposals_error h
  · obtain ⟨selected, hselected⟩ := exists_resolve w (proposals_proposed hproposed)
    rw [hselected] at h
    cases h

end Selection

end Statechart
