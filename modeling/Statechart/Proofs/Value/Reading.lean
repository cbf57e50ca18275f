/-
What comes back when a value is read.

A value is read from the ids of its leaves: each of them has to be the id of a leaf node,
and what stands above one is active as well.  The leaves of a value that was written are
the nodes at which the walk ended, so what comes back are the nodes that the walk met
(`toConfiguration_of_shown`).  They always are a legal configuration, even when the set
that was written is not one: a region that was lost is shown, and comes back.

The one thing that cannot be read back is a parallel node without regions below the
root.  It is written like a leaf and refused as none (`toConfiguration_of_hollow`).
-/
import Statechart.Proofs.Configuration.Legal
import Statechart.Proofs.Value.Shown

namespace Statechart

open Statechart.Tree Outcome

variable {t : Tree} {C C' : NodeSet} {i n : Nat} {v : StateValue}

/-- A parallel node below the root that has no regions. -/
def Hollow (t : Tree) (i : Nat) : Prop :=
  i ≠ Tree.root ∧ t.kind i = .parallel ∧ t.regions i = []

instance (t : Tree) (i : Nat) : Decidable (Hollow t i) :=
  inferInstanceAs (Decidable (_ ∧ _ ∧ _))

/-- The walk that writes a value ends at such a node, as if it were a leaf. -/
theorem Hollow.ends (h : Hollow t n) : Ends t n :=
  ⟨by rw [h.2.1]; exact NodeKind.noConfusion, fun _ => h.2.2⟩

theorem Hollow.isLeaf (h : Hollow t n) : t.isLeaf n = false := by
  rw [Tree.isLeaf, h.2.1]
  rfl

/-! ### What is shown -/

/-- Above what is shown everything is shown. -/
theorem shows_of_within (w : t.WellFormed) (h : Shows t C Tree.root n) :
    t.Within n i → Shows t C Tree.root i := by
  induction h with
  | refl =>
      intro hw
      rcases hw with rfl | hb
      · exact .refl
      · exact absurd hb (not_below_of_no_parent w.root_parent)
  | tail hm hstep ih =>
      intro hw
      rcases hw with rfl | hb
      · exact .tail hm hstep
      · exact ih ((below_iff_of_parent (hstep.parent w)).mp hb)

theorem Shows.lt_size (w : t.WellFormed) (h : Shows t C Tree.root i) : i < t.size := by
  rcases Relation.ReflTransGen.cases_tail h with rfl | ⟨_, _, hstep⟩
  · exact t.root_lt_size
  · exact lt_size_of_parent (hstep.parent w)

theorem Shows.active (w : t.WellFormed) (h : Shows t C Tree.root i) : t.isHistory i = false := by
  rcases Relation.ReflTransGen.cases_tail h with rfl | ⟨_, _, hstep⟩
  · exact w.root_kind
  · exact (w.mem_regions.mp hstep.mem_regions).2

/-- In a value that can be written every walk can be taken to an end. -/
theorem exists_end (w : t.WellFormed)
    (h : ∀ n, Shows t C i n → t.kind n = .compound → ∃ c ∈ t.regions n, c ∈ C) :
    ∃ n, Shows t C i n ∧ Ends t n := by
  induction hk : t.size - i using Nat.strong_induction_on generalizing i with
  | _ k ih =>
      by_cases hstep : ∃ c, ShowStep t C i c
      · obtain ⟨c, hstep⟩ := hstep
        have hlt := lt_of_child (w.mem_children.mpr (hstep.parent w))
        obtain ⟨n, hn, hends⟩ := ih (t.size - c) (by omega) (fun n hn => h n (.head hstep hn)) rfl
        exact ⟨n, .head hstep hn, hends⟩
      · refine ⟨i, .refl, fun hkind => ?_, fun hkind => ?_⟩
        · obtain ⟨b, hb⟩ := exists_active_of_mem (h i .refl hkind)
          exact hstep ⟨b, .active hkind hb⟩
        · refine List.eq_nil_iff_forall_not_mem.mpr fun c hc => hstep ⟨c, .region hkind hc⟩

/-- What is shown stands at or above the ends of the walk. -/
theorem shows_iff_within_end (w : t.WellFormed)
    (h : ∀ n, Shows t C Tree.root n → t.kind n = .compound → ∃ c ∈ t.regions n, c ∈ C) :
    Shows t C Tree.root i ↔ ∃ n, Shows t C Tree.root n ∧ Ends t n ∧ t.Within n i := by
  constructor
  · intro hi
    obtain ⟨n, hn, hends⟩ := exists_end w fun n hn => h n (hi.trans hn)
    exact ⟨n, hi.trans hn, hends, hn.within w⟩
  · rintro ⟨n, hn, _, hw⟩
    exact shows_of_within w hn hw

/-- What a walk ends at is a leaf node, or a parallel node without regions. -/
theorem leaf_or_hollow (w : t.WellFormed) (h : Shows t C Tree.root n) (hends : Ends t n) :
    (n = Tree.root ∨ t.isLeaf n = true) ∨ Hollow t n := by
  have hactive := h.active w
  by_cases hroot : n = Tree.root
  · exact Or.inl (Or.inl hroot)
  cases hkind : t.kind n with
  | atomic => exact Or.inl (Or.inr (by rw [isLeaf, hkind]; rfl))
  | final => exact Or.inl (Or.inr (by rw [isLeaf, hkind]; rfl))
  | compound => exact absurd hkind hends.1
  | parallel => exact Or.inr ⟨hroot, hkind, hends.2 hkind⟩
  | history k => rw [isHistory, hkind] at hactive; cases hactive

/-! ### Legal configurations show themselves -/

/-- What is active is shown. -/
theorem shows_of_mem (w : t.WellFormed) (hC : Coherent t C) : i ∈ C → Shows t C Tree.root i := by
  induction i using Nat.strong_induction_on with
  | _ i ih =>
      intro hi
      by_cases hroot : i = Tree.root
      · rw [hroot]; exact .refl
      · obtain ⟨p, hp⟩ := w.exists_parent i (hC.inTree i hi) hroot
        have hpC := hC.parent i hi p hp
        have hregion : i ∈ t.regions p := w.mem_regions.mpr ⟨hp, hC.history i hi⟩
        refine .tail (ih p (lt_of_parent hp) hpC) ?_
        rcases w.kind_of_child hp with hkind | hkind
        · obtain ⟨c, hc⟩ := exists_active_of_mem ⟨i, hregion, hi⟩
          obtain ⟨hmem, hactive⟩ := active_of_find hc
          rw [hC.child_unique w hkind (w.mem_regions.mp hmem).1 hp hactive hi] at hc
          exact .active hkind hc
        · exact .region hkind hregion

theorem shows_iff_mem (w : t.WellFormed) (hC : Legal t C) : Shows t C Tree.root i ↔ i ∈ C := by
  refine ⟨fun h => ?_, shows_of_mem w hC.toCoherent⟩
  induction h with
  | refl => exact hC.root
  | tail _ hstep ih =>
      cases hstep with
      | active _ hb => exact (active_of_find hb).2
      | region hkind hb => exact hC.regions _ ih hkind _ hb

/-- A legal configuration can be written. -/
theorem exists_ofConfiguration (w : t.WellFormed) (hC : Legal t C) :
    ∃ v, StateValue.ofConfiguration t C = .ok v := by
  refine (StateValue.exists_ofNode_iff w).mpr fun n hn hkind => ?_
  obtain ⟨c, hc, _⟩ := hC.child n ((shows_iff_mem w hC).mp hn) hkind
  exact ⟨c, hc.1, hc.2⟩

/-- What is shown is a legal configuration. -/
theorem legal_of_shown (w : t.WellFormed)
    (hwritten : ∀ n, Shows t C Tree.root n → t.kind n = .compound → ∃ c ∈ t.regions n, c ∈ C)
    (h : ∀ i, i ∈ C' ↔ Shows t C Tree.root i) : Legal t C' := by
  refine ⟨⟨(h _).mpr .refl, fun i hi => ((h i).mp hi).lt_size w, ?_,
    fun i hi => ((h i).mp hi).active w, ?_⟩, ?_⟩
  · intro i hi p hp
    exact (h p).mpr (shows_of_within w ((h i).mp hi) (below_of_parent hp).within)
  · intro i hi hkind
    obtain ⟨b, hb⟩ := exists_active_of_mem (hwritten i ((h i).mp hi) hkind)
    refine ⟨b, ⟨(active_of_find hb).1, (h b).mpr (.tail ((h i).mp hi) (.active hkind hb))⟩, ?_⟩
    rintro a ⟨ha, haC⟩
    -- a child that is shown was met on the walk, which takes one child only
    rcases Relation.ReflTransGen.cases_tail ((h a).mp haC) with rfl | ⟨p, _, hstep⟩
    · have := (w.mem_regions.mp ha).1
      rw [w.root_parent] at this
      cases this
    · have hp := hstep.parent w
      rw [(w.mem_regions.mp ha).1] at hp
      cases hp
      cases hstep with
      | active _ ha => rw [hb] at ha; cases ha; rfl
      | region hk _ => rw [hkind] at hk; cases hk
  · intro i hi hkind c hc
    exact (h c).mpr (.tail ((h i).mp hi) (.region hkind hc))

/-! ### Reading the leaves -/

namespace StateValue

/-- A leaf that may be read: the root, or a leaf node. -/
def Readable (t : Tree) (n : Nat) : Prop := n = Tree.root ∨ t.isLeaf n = true

theorem addLeaf_readable {id : String} (hn : t.lookup id = some n) (h : Readable t n) :
    ∃ C', addLeaf t C id = .ok C' ∧ ∀ i, i ∈ C' ↔ i ∈ C ∨ t.Within n i := by
  refine ⟨(C.insert n).insertMany (t.ancestors n), ?_, fun i => ?_⟩
  · unfold addLeaf
    simp only [hn]
    refine if_neg ?_
    rcases h with h | h <;> simp [h]
  · rw [SortedSet.mem_insertMany, SortedSet.mem_insert]
    constructor
    · rintro ((rfl | h) | h)
      · exact Or.inr within_self
      · exact Or.inl h
      · exact Or.inr (Or.inr h)
    · rintro (h | rfl | h)
      · exact Or.inl (Or.inr h)
      · exact Or.inl (Or.inl rfl)
      · exact Or.inr h

theorem addLeaf_refused {id : String} (hn : t.lookup id = some n) (h : ¬ Readable t n) :
    addLeaf t C id = .error (.notLeaf id) := by
  unfold addLeaf
  simp only [hn]
  refine if_pos ?_
  simp only [Readable, not_or] at h
  simp [h]

/-- What has been added is a node that may be read. -/
theorem readable_of_addLeaf {id : String} (h : addLeaf t C id = .ok C') :
    ∃ n, t.lookup id = some n ∧ Readable t n := by
  cases hn : t.lookup id with
  | none =>
      unfold addLeaf at h
      simp only [hn] at h
      cases h
  | some n =>
      refine ⟨n, rfl, by_contra fun hread => ?_⟩
      rw [addLeaf_refused hn hread] at h
      cases h

/-- Leaves that may be read add themselves and what stands above them. -/
theorem foldlM_addLeaf (w : t.WellFormed) (ids : List String)
    (h : ∀ id ∈ ids, ∃ n, n < t.size ∧ (t.node n).id = id ∧ Readable t n) :
    ∀ C : NodeSet, ∃ C', ids.foldlM (addLeaf t) C = .ok C' ∧
      ∀ i, i ∈ C' ↔ i ∈ C ∨ ∃ n, n < t.size ∧ (t.node n).id ∈ ids ∧ t.Within n i := by
  induction ids with
  | nil => intro C; exact ⟨C, rfl, by simp⟩
  | cons id rest ih =>
      intro C
      obtain ⟨n, hn, rfl, hread⟩ := h id (List.mem_cons_self ..)
      obtain ⟨C₁, h₁, hmem₁⟩ := addLeaf_readable (C := C) (w.lookup_id n hn) hread
      obtain ⟨C', h', hmem'⟩ := ih (fun id hid => h id (List.mem_cons_of_mem _ hid)) C₁
      refine ⟨C', by rw [List.foldlM_cons]; exact bind_eq_ok.mpr ⟨C₁, h₁, h'⟩, fun i => ?_⟩
      rw [hmem', hmem₁]
      constructor
      · rintro ((h | h) | ⟨m, hm, hid, h⟩)
        · exact Or.inl h
        · exact Or.inr ⟨n, hn, List.mem_cons_self .., h⟩
        · exact Or.inr ⟨m, hm, List.mem_cons_of_mem _ hid, h⟩
      · rintro (h | ⟨m, hm, hid, hw⟩)
        · exact Or.inl (Or.inl h)
        · rcases List.mem_cons.mp hid with heq | hid
          · obtain rfl := w.eq_of_id hm hn heq
            exact Or.inl (Or.inr hw)
          · exact Or.inr ⟨m, hm, hid, hw⟩

/-- What has been added for a list of ids are nodes that may be read. -/
theorem readable_of_foldlM_addLeaf {ids : List String} : ∀ {C C' : NodeSet},
    ids.foldlM (addLeaf t) C = .ok C' →
      ∀ id ∈ ids, ∃ n, t.lookup id = some n ∧ Readable t n := by
  intro C C' h id hid
  obtain ⟨_, _, hstep⟩ := exists_of_foldlM hid h
  exact readable_of_addLeaf hstep

/-- Where every id finds a node, the first of them that may not be read is refused. -/
theorem foldlM_addLeaf_error {ids : List String} {f : TransitionFault}
    (hfound : ∀ id ∈ ids, ∃ n, t.lookup id = some n) : ∀ {C : NodeSet},
      ids.foldlM (addLeaf t) C = .error f →
        ∃ id ∈ ids, ∃ n, t.lookup id = some n ∧ ¬ Readable t n ∧ f = .notLeaf id := by
  induction ids with
  | nil => intro C h; cases h
  | cons id rest ih =>
      intro C h
      obtain ⟨⟨n, hn⟩, hrest⟩ := List.forall_mem_cons.mp hfound
      rw [List.foldlM_cons] at h
      rcases bind_eq_error.mp h with h | ⟨C₁, _, h⟩
      · refine ⟨id, List.mem_cons_self .., n, hn, fun hread => ?_, ?_⟩
        · obtain ⟨C₁, h₁, _⟩ := addLeaf_readable (C := C) hn hread
          rw [h] at h₁
          cases h₁
        · unfold addLeaf at h
          simp only [hn] at h
          split at h <;> cases h
          rfl
      · obtain ⟨id', hid', hrefused⟩ := ih hrest h
        exact ⟨id', List.mem_cons_of_mem _ hid', hrefused⟩

/-! ### The count of the children -/

/-- In a legal configuration every node has as many active children as it should. -/
theorem fits_of_legal (w : t.WellFormed) (hC : Legal t C) (hi : i ∈ C) : fits t C i = true := by
  have hregion : ∀ c ∈ t.children i, c ∈ C → c ∈ t.regions i := fun c hc hactive =>
    List.mem_filter.mpr ⟨hc, by rw [hC.history c hactive]; rfl⟩
  unfold fits
  cases hkind : t.kind i with
  | compound =>
      obtain ⟨c, ⟨hc, hactive⟩, hunique⟩ := hC.child i hi hkind
      have hcount : (t.children i).countP (fun b => decide (b ∈ C)) = (t.children i).count c := by
        refine List.countP_congr fun b hb => ?_
        rw [decide_eq_true_eq, beq_iff_eq]
        constructor
        · intro hbC; exact hunique b ⟨hregion b hb hbC, hbC⟩
        · rintro rfl; exact hactive
      dsimp only
      rw [hcount, List.count_eq_one_of_mem (w.nodup_children i) (List.mem_filter.mp hc).1]
      rfl
  | parallel =>
      have hcount : (t.children i).countP (fun b => decide (b ∈ C)) = (t.regions i).length := by
        rw [regions, ← List.countP_eq_length_filter]
        refine List.countP_congr fun b hb => ?_
        rw [decide_eq_true_eq, Bool.not_eq_true']
        constructor
        · intro hbC; exact hC.history b hbC
        · intro hb'
          exact hC.regions i hi hkind b (List.mem_filter.mpr ⟨hb, by rw [hb']; rfl⟩)
      dsimp only
      rw [hcount]
      exact beq_self_eq_true _
  | atomic => rfl
  | final => rfl
  | history k => rfl

/-- A value is read when its leaves can be added and the count of the children is right. -/
theorem toConfiguration_eq_ok : v.toConfiguration t = .ok C ↔
    (v.activeIds (t.node Tree.root).id).toList.foldlM (addLeaf t)
      (SortedSet.empty.insert Tree.root) = .ok C ∧ ∀ i ∈ C, fits t C i = true := by
  have hfind : C.toList.find? (fun i => !fits t C i) = none ↔ ∀ i ∈ C, fits t C i = true := by
    rw [List.find?_eq_none]
    simp only [Bool.not_eq_true, Bool.not_eq_false', SortedSet.mem_toList]
  unfold toConfiguration
  rw [← hfind, bind_eq_ok]
  constructor
  · rintro ⟨C', hC', h⟩
    split at h
    · rename_i hnone
      cases h
      exact ⟨hC', hnone⟩
    · cases h
  · rintro ⟨hC, hnone⟩
    exact ⟨C, hC, by rw [hnone]; rfl⟩

/-! ### Reading a value that was written -/

theorem mem_activeIds (w : t.WellFormed) (hv : ofConfiguration t C = .ok v) (id : String) :
    id ∈ (v.activeIds (t.node Tree.root).id).toList ↔
      ∃ n, Shows t C Tree.root n ∧ Ends t n ∧ (t.node n).id = id := by
  rw [SortedSet.mem_toList, activeIds, SortedSet.mem_ofList]
  exact mem_leafIds_iff w t.root_lt_size hv

/-- **What was written is read back as what it shows**, when no parallel node without regions
is shown. -/
theorem toConfiguration_of_shown (w : t.WellFormed) (hv : ofConfiguration t C = .ok v)
    (hhollow : ∀ n, Shows t C Tree.root n → ¬ Hollow t n) :
    ∃ C', v.toConfiguration t = .ok C' ∧ (∀ i, i ∈ C' ↔ Shows t C Tree.root i) ∧ Legal t C' := by
  have hwritten := (exists_ofNode_iff w).mp ⟨v, hv⟩
  have hids := mem_activeIds w hv
  obtain ⟨C', hC', hmem⟩ := foldlM_addLeaf w (v.activeIds (t.node Tree.root).id).toList
    (fun id hid => by
      obtain ⟨n, hn, hends, hid⟩ := (hids _).mp hid
      exact ⟨n, hn.lt_size w, hid, (leaf_or_hollow w hn hends).resolve_right (hhollow n hn)⟩)
    (SortedSet.empty.insert Tree.root)
  have hshown : ∀ i, i ∈ C' ↔ Shows t C Tree.root i := by
    intro i
    rw [hmem, shows_iff_within_end w hwritten, SortedSet.mem_insert]
    constructor
    · rintro ((rfl | h) | ⟨n, hn, hid, hw⟩)
      · exact (shows_iff_within_end w hwritten).mp .refl
      · exact absurd h SortedSet.not_mem_empty
      · obtain ⟨m, hm, hends, hid⟩ := (hids _).mp hid
        obtain rfl := w.eq_of_id (hm.lt_size w) hn hid
        exact ⟨_, hm, hends, hw⟩
    · rintro ⟨n, hn, hends, hw⟩
      exact Or.inr ⟨n, hn.lt_size w, (hids _).mpr ⟨n, hn, hends, rfl⟩, hw⟩
  have hlegal := legal_of_shown w hwritten hshown
  exact ⟨C', toConfiguration_eq_ok.mpr ⟨hC', fun i hi => fits_of_legal w hlegal hi⟩, hshown,
    hlegal⟩

/-- What shows a parallel node without regions cannot be read back: one of these is refused. -/
theorem toConfiguration_of_hollow (w : t.WellFormed) (hv : ofConfiguration t C = .ok v)
    (hn : Shows t C Tree.root n) (hhollow : Hollow t n) :
    ∃ k, Shows t C Tree.root k ∧ Hollow t k ∧
      v.toConfiguration t = .error (.notLeaf (t.node k).id) := by
  have hids := mem_activeIds w hv
  have hread : ¬ Readable t n := by
    rintro (h | h)
    · exact hhollow.1 h
    · rw [hhollow.isLeaf] at h
      cases h
  cases hfold : (v.activeIds (t.node Tree.root).id).toList.foldlM (addLeaf t)
      (SortedSet.empty.insert Tree.root) with
  | ok C' =>
      obtain ⟨k, hk, hreadable⟩ :=
        readable_of_foldlM_addLeaf hfold _ ((hids _).mpr ⟨n, hn, hhollow.ends, rfl⟩)
      rw [w.lookup_id n (hn.lt_size w)] at hk
      cases hk
      exact absurd hreadable hread
  | error f =>
      have hfound : ∀ id ∈ (v.activeIds (t.node Tree.root).id).toList,
          ∃ k, t.lookup id = some k := fun id hid => by
        obtain ⟨k, hk, _, rfl⟩ := (hids id).mp hid
        exact ⟨k, w.lookup_id k (hk.lt_size w)⟩
      obtain ⟨id, hid, k, hk, hrefused, rfl⟩ := foldlM_addLeaf_error hfound hfold
      obtain ⟨k', hk', hends', rfl⟩ := (hids id).mp hid
      rw [w.lookup_id k' (hk'.lt_size w)] at hk
      cases hk
      exact ⟨k, hk', (leaf_or_hollow w hk' hends').resolve_left hrefused,
        bind_eq_error.mpr (Or.inl hfold)⟩

/-- A legal configuration comes back as it was. -/
theorem toConfiguration_of_legal (w : t.WellFormed) (hC : Legal t C)
    (hv : ofConfiguration t C = .ok v) (hhollow : ∀ n ∈ C, ¬ Hollow t n) :
    v.toConfiguration t = .ok C := by
  obtain ⟨C', hC', hmem, _⟩ := toConfiguration_of_shown w hv
    fun n hn => hhollow n ((shows_iff_mem w hC).mp hn)
  rw [hC']
  congr 1
  exact SortedSet.ext fun i => (hmem i).trans (shows_iff_mem w hC)

end StateValue

end Statechart
