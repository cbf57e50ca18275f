/-
Which values are read, and as which configurations.

A value comes from outside with any nesting and any keys, dots in them included.  The reader
looks at nothing but the ids of its leaves.  What it adds for each of them hangs together from
the root down, so that the count of the children that it ends with decides whether the whole
is legal (`legal_of_fits`), and the leaves of the whole are the nodes that were named
(`Describes`).

Two things could come in between and do not.  An id could find a node under another name, but
the ids of leaves have a dot in them, and the names that nodes are given have none.  And the
empty mapping names the root, which may be read although it is no leaf; then nothing else is
named, and the count lets a root with regions not pass.
-/
import Statechart.Machine
import Statechart.Proofs.Tree.Names
import Statechart.Proofs.Value.Reading

namespace Statechart

open Statechart.Tree Outcome

variable {t : Tree} {C C' : NodeSet} {i n : Nat} {v : StateValue}

/-- Where a configuration ends: at a leaf, or at the root if that has no regions. -/
def Tip (t : Tree) (n : Nat) : Prop :=
  t.isLeaf n = true ∨ (n = Tree.root ∧ t.regions Tree.root = [])

/-- The active leaves of a value are, by their ids, the tips of a configuration. -/
def NamesTips (t : Tree) (v : StateValue) (C : NodeSet) : Prop :=
  ∀ id, id ∈ v.activeIds (t.node Tree.root).id ↔ ∃ n ∈ C, Tip t n ∧ (t.node n).id = id

/-- A value describes a configuration. -/
structure Describes (t : Tree) (v : StateValue) (C : NodeSet) : Prop where
  legal : Legal t C
  /-- Every active node but the root is a leaf or has an active leaf below it. -/
  leafed : ∀ i ∈ C, i ≠ Tree.root → ∃ n ∈ C, t.isLeaf n = true ∧ t.Within n i
  names : NamesTips t v C

/-! ### Counting children -/

/-- A set that hangs together is legal if every node in it has as many active children as its
kind wants. -/
theorem legal_of_fits (w : t.WellFormed) (hroot : Tree.root ∈ C) (hinTree : ∀ i ∈ C, i < t.size)
    (hparent : ∀ i ∈ C, ∀ p, t.parent i = some p → p ∈ C)
    (hhistory : ∀ i ∈ C, t.isHistory i = false)
    (hfits : ∀ i ∈ C, StateValue.fits t C i = true) : Legal t C := by
  refine ⟨⟨hroot, hinTree, hparent, hhistory, fun i hi hkind => ?_⟩, fun i hi hkind => ?_⟩
  · have hone : ((t.children i).filter fun c => decide (c ∈ C)).length = 1 := by
      rw [← List.countP_eq_length_filter]
      simpa [StateValue.fits, hkind] using hfits i hi
    obtain ⟨c, hc⟩ := List.length_eq_one_iff.mp hone
    have hmem : ∀ b, b ∈ t.children i ∧ b ∈ C ↔ b = c := fun b => by
      rw [← List.mem_singleton, ← hc, List.mem_filter, decide_eq_true_eq]
    obtain ⟨hchild, hactive⟩ := (hmem c).mpr rfl
    refine ⟨c, ⟨?_, hactive⟩, fun b hb => (hmem b).mp ⟨(List.mem_filter.mp hb.1).1, hb.2⟩⟩
    exact w.mem_regions.mpr ⟨w.mem_children.mp hchild, hhistory c hactive⟩
  · -- history nodes are never active, so that the children may be counted among the regions
    have hall : (t.regions i).countP (fun c => decide (c ∈ C)) = (t.regions i).length := by
      have hcount : (t.children i).countP (fun c => decide (c ∈ C)) = (t.regions i).length := by
        simpa [StateValue.fits, hkind] using hfits i hi
      rw [← hcount, regions, List.countP_filter]
      refine List.countP_congr fun c _ => ?_
      rw [Bool.and_eq_true, decide_eq_true_eq, Bool.not_eq_true']
      exact and_iff_left_of_imp (hhistory c)
    exact fun c hc => of_decide_eq_true (List.countP_eq_length.mp hall c hc)

/-- Whether a set is a legal configuration, by counting. -/
def isLegal (t : Tree) (C : NodeSet) : Bool :=
  decide (Tree.root ∈ C) && C.toList.all fun i =>
    decide (i < t.size) && (t.parent i).all (fun p => decide (p ∈ C)) && !t.isHistory i &&
      StateValue.fits t C i

theorem isLegal_iff (w : t.WellFormed) : isLegal t C = true ↔ Legal t C := by
  simp only [isLegal, Bool.and_eq_true, decide_eq_true_eq, List.all_eq_true, Bool.not_eq_true',
    Option.all_eq_true, SortedSet.mem_toList]
  constructor
  · rintro ⟨hroot, hall⟩
    exact legal_of_fits w hroot (fun i hi => (hall i hi).1.1.1) (fun i hi => (hall i hi).1.1.2)
      (fun i hi => (hall i hi).1.2) fun i hi => (hall i hi).2
  · intro hC
    exact ⟨hC.root, fun i hi => ⟨⟨⟨hC.inTree i hi, hC.parent i hi⟩, hC.history i hi⟩,
      StateValue.fits_of_legal w hC hi⟩⟩

/-! ### The leaves of a value -/

namespace StateValue

/-- Every value has a leaf. -/
theorem leafIds_ne_nil : ∀ (v : StateValue) (base : String), leafIds base v ≠ []
  | .leaf _, _ => by simp [leafIds]
  | .branch [], _ => by simp [leafIds]
  | .branch ((key, value) :: rest), base => by
      rw [leafIds, leafIdsOf]
      exact fun h => leafIds_ne_nil value (join base key) (List.append_eq_nil_iff.mp h).1

mutual

/-- Only the empty mapping names the place where it stands; what else is named stands below. -/
theorem leafIds_cases {id : String} : ∀ (v : StateValue) {base : String}, base ≠ "" →
    id ∈ leafIds base v →
      (v = .branch [] ∧ id = base) ∨ ∃ below, id = base ++ "." ++ below
  | .leaf key, base, hbase, h => by
      rw [leafIds, List.mem_singleton, join_eq hbase] at h
      exact Or.inr ⟨key, h⟩
  | .branch [], base, _, h => by
      rw [leafIds, List.mem_singleton] at h
      exact Or.inl ⟨rfl, h⟩
  | .branch (entry :: rest), base, hbase, h => by
      rw [leafIds] at h
      exact Or.inr (leafIdsOf_cases (entry :: rest) hbase h)

theorem leafIdsOf_cases {id : String} : ∀ (l : List (String × StateValue)) {base : String},
    base ≠ "" → id ∈ leafIdsOf base l → ∃ below, id = base ++ "." ++ below
  | [], _, _, h => absurd h List.not_mem_nil
  | (key, value) :: rest, base, hbase, h => by
      rw [leafIdsOf, List.mem_append] at h
      rcases h with h | h
      · rw [join_eq hbase] at h
        rcases leafIds_cases value (by simp) h with ⟨_, rfl⟩ | ⟨below, rfl⟩
        · exact ⟨key, rfl⟩
        · exact ⟨key ++ "." ++ below, by simp only [String.append_assoc]⟩
      · exact leafIdsOf_cases rest hbase h

end

/-- A leaf that is read names its node by the dotted id; only the empty mapping names the
root. -/
theorem named_of_readable (w : t.WellFormed) (hplain : t.PlainNames) {id : String}
    (hid : id ∈ v.activeIds (t.node Tree.root).id) (hn : t.lookup id = some n)
    (hread : Readable t n) :
    n < t.size ∧ (t.node n).id = id ∧ (t.isLeaf n = true ∨ (n = Tree.root ∧ v = .branch [])) := by
  have hroot := w.id_ne Tree.root t.root_lt_size
  rw [activeIds, SortedSet.mem_ofList] at hid
  rcases leafIds_cases v hroot hid with ⟨hv, rfl⟩ | ⟨below, rfl⟩
  · rw [w.lookup_id Tree.root t.root_lt_size] at hn
    cases hn
    exact ⟨t.root_lt_size, rfl, Or.inr ⟨rfl, hv⟩⟩
  · obtain ⟨hlt, hname⟩ := id_of_lookup hplain (by simp) hn
    refine ⟨hlt, hname, Or.inl (hread.resolve_left ?_)⟩
    -- the id of the root is shorter than any that stands below it
    rintro rfl
    have hlength := congrArg String.length hname
    rw [String.length_append, String.length_append] at hlength
    have hdot : ".".length = 1 := rfl
    omega

end StateValue

/-! ### What is read -/

/-- Below a root that is alone nothing is left to be active. -/
theorem regions_root_of_alone (w : t.WellFormed) (hC : Legal t C)
    (halone : ∀ i ∈ C, i = Tree.root) : t.regions Tree.root = [] := by
  refine List.eq_nil_iff_forall_not_mem.mpr fun c hc => ?_
  obtain ⟨b, hb, hbC⟩ := hC.exists_region hC.root (w.kind_of_child (w.mem_regions.mp hc).1)
    fun _ => List.ne_nil_of_mem hc
  have hparent := (w.mem_regions.mp hb).1
  rw [halone b hbC, w.root_parent] at hparent
  cases hparent

/-- What is active at or below an active leaf, or below a root without regions. -/
theorem Coherent.eq_of_within_tip (hC : Coherent t C) (w : t.WellFormed) (hi : i ∈ C)
    (hn : Tip t n) (hw : t.Within i n) : i = n := by
  refine hw.resolve_right fun hb => ?_
  rcases hn with hleaf | ⟨rfl, hregions⟩
  · rw [w.isLeaf_of_below hb] at hleaf
    cases hleaf
  · obtain ⟨c, hc, hic⟩ := hb.exists_child
    have hmem : c ∈ t.regions Tree.root :=
      w.mem_regions.mpr ⟨hc, hC.history c (hC.mem_of_within hi hic)⟩
    rw [hregions] at hmem
    cases hmem

/-- A leaf of a value names a node. -/
def Names (t : Tree) (v : StateValue) (n : Nat) : Prop :=
  n < t.size ∧ (t.node n).id ∈ v.activeIds (t.node Tree.root).id

/-- A set is gathered from a value: it is the root, with the nodes that are named and what
stands above them. -/
structure Gathered (t : Tree) (v : StateValue) (C : NodeSet) : Prop where
  /-- Every leaf names a node. -/
  found : ∀ id ∈ v.activeIds (t.node Tree.root).id, ∃ n, Names t v n ∧ (t.node n).id = id
  /-- Only leaves are named, or the root alone. -/
  leaf : ∀ n, Names t v n → t.isLeaf n = true ∨ (n = Tree.root ∧ v = .branch [])
  mem : ∀ i, i ∈ C ↔ i = Tree.root ∨ ∃ n, Names t v n ∧ t.Within n i

namespace Gathered

theorem mem_of_names (h : Gathered t v C) (hn : Names t v n) : n ∈ C :=
  (h.mem n).mpr (Or.inr ⟨n, hn, within_self⟩)

theorem isLeaf (h : Gathered t v C) (hn : Names t v n) (hne : n ≠ Tree.root) :
    t.isLeaf n = true :=
  (h.leaf n hn).resolve_right fun hroot => hne hroot.1

/-- A set that is gathered is legal if the counts of its children are right. -/
theorem legal (w : t.WellFormed) (h : Gathered t v C)
    (hfits : ∀ i ∈ C, StateValue.fits t C i = true) : Legal t C := by
  refine legal_of_fits w ((h.mem _).mpr (Or.inl rfl)) (fun i hi => ?_) (fun i hi p hp => ?_)
    (fun i hi => ?_) hfits
  · rcases (h.mem i).mp hi with rfl | ⟨n, hn, rfl | hb⟩
    · exact t.root_lt_size
    · exact hn.1
    · exact Nat.lt_trans hb.lt hn.1
  · rcases (h.mem i).mp hi with rfl | ⟨n, hn, hw⟩
    · rw [w.root_parent] at hp
      cases hp
    · exact (h.mem p).mpr (Or.inr ⟨n, hn, hw.trans (below_of_parent hp).within⟩)
  · by_cases hroot : i = Tree.root
    · rw [hroot]
      exact w.root_kind
    rcases (h.mem i).mp hi with hi | ⟨n, hn, rfl | hb⟩
    · exact absurd hi hroot
    · exact isHistory_of_isLeaf (h.isLeaf hn hroot)
    · exact w.isHistory_of_below hb

/-- Every node that is gathered but the root has a leaf at it or below it. -/
theorem leafed (w : t.WellFormed) (h : Gathered t v C) (hi : i ∈ C) (hne : i ≠ Tree.root) :
    ∃ n ∈ C, t.isLeaf n = true ∧ t.Within n i := by
  obtain ⟨n, hn, hw⟩ := ((h.mem i).mp hi).resolve_left hne
  have hroot : n ≠ Tree.root := by
    rintro rfl
    exact hne (w.eq_root_of_within hw)
  exact ⟨n, h.mem_of_names hn, h.isLeaf hn hroot, hw⟩

/-- What is named is a tip. -/
theorem tip (w : t.WellFormed) (h : Gathered t v C) (hC : Legal t C) (hn : Names t v n) :
    Tip t n := by
  refine (h.leaf n hn).imp_right ?_
  rintro ⟨rfl, rfl⟩
  refine ⟨rfl, regions_root_of_alone w hC fun i hi => ?_⟩
  -- the empty mapping names nothing but the root
  refine ((h.mem i).mp hi).elim id ?_
  rintro ⟨n, ⟨hn, hid⟩, hw⟩
  rw [StateValue.activeIds, SortedSet.mem_ofList, StateValue.leafIds, List.mem_singleton] at hid
  obtain rfl := w.eq_of_id hn t.root_lt_size hid
  exact w.eq_root_of_within hw

/-- A tip is named. -/
theorem names_of_tip (w : t.WellFormed) (h : Gathered t v C) (hC : Legal t C) (hn : n ∈ C)
    (htip : Tip t n) : Names t v n := by
  have hat : ∀ m, Names t v m → t.Within m n → Names t v n := fun m hm hw => by
    rwa [hC.toCoherent.eq_of_within_tip w (h.mem_of_names hm) htip hw] at hm
  rcases (h.mem n).mp hn with rfl | ⟨m, hm, hw⟩
  · -- every value has a leaf, and at or below a tip it names nothing but the tip
    obtain ⟨id, hid⟩ :=
      List.exists_mem_of_ne_nil _ (StateValue.leafIds_ne_nil v (t.node Tree.root).id)
    obtain ⟨m, hm, _⟩ := h.found id (SortedSet.mem_ofList.mpr hid)
    exact hat m hm (w.within_root hm.1)
  · exact hat m hm hw

end Gathered

namespace StateValue

/-- What is read is gathered from the value. -/
theorem gathered_of_toConfiguration (w : t.WellFormed) (hplain : t.PlainNames)
    (h : v.toConfiguration t = .ok C) : Gathered t v C := by
  obtain ⟨hfold, _⟩ := toConfiguration_eq_ok.mp h
  have hnamed : ∀ id ∈ v.activeIds (t.node Tree.root).id, ∃ n, n < t.size ∧ (t.node n).id = id ∧
      (t.isLeaf n = true ∨ (n = Tree.root ∧ v = .branch [])) := by
    intro id hid
    obtain ⟨n, hn, hread⟩ := readable_of_foldlM_addLeaf hfold id (SortedSet.mem_toList.mpr hid)
    exact ⟨n, named_of_readable w hplain hid hn hread⟩
  refine ⟨fun id hid => ?_, fun n hn => ?_, fun i => ?_⟩
  · obtain ⟨n, hn, rfl, _⟩ := hnamed id hid
    exact ⟨n, ⟨hn, hid⟩, rfl⟩
  · obtain ⟨m, hm, hname, hcase⟩ := hnamed _ hn.2
    rwa [w.eq_of_id hm hn.1 hname] at hcase
  · obtain ⟨C', hC', hmem⟩ := foldlM_addLeaf w (v.activeIds (t.node Tree.root).id).toList
      (fun id hid => by
        obtain ⟨n, hn, hname, hcase⟩ := hnamed id (SortedSet.mem_toList.mp hid)
        exact ⟨n, hn, hname, hcase.symm.imp_left And.left⟩)
      (SortedSet.empty.insert Tree.root)
    rw [hfold] at hC'
    cases hC'
    simp only [hmem, SortedSet.mem_insert, SortedSet.not_mem_empty, or_false,
      SortedSet.mem_toList, Names, and_assoc]

/-- What is read is what the value describes. -/
theorem describes_of_toConfiguration (w : t.WellFormed) (hplain : t.PlainNames)
    (h : v.toConfiguration t = .ok C) : Describes t v C := by
  have hgathered := gathered_of_toConfiguration w hplain h
  have hlegal := hgathered.legal w (toConfiguration_eq_ok.mp h).2
  refine ⟨hlegal, fun i hi hne => hgathered.leafed w hi hne, fun id => ⟨fun hid => ?_, ?_⟩⟩
  · obtain ⟨n, hn, hname⟩ := hgathered.found id hid
    exact ⟨n, hgathered.mem_of_names hn, hgathered.tip w hlegal hn, hname⟩
  · rintro ⟨n, hn, htip, rfl⟩
    exact (hgathered.names_of_tip w hlegal hn htip).2

/-- What a value describes is read. -/
theorem toConfiguration_of_describes (w : t.WellFormed) (h : Describes t v C) :
    v.toConfiguration t = .ok C := by
  have hC := h.legal.toCoherent
  obtain ⟨C', hC', hmem⟩ := foldlM_addLeaf w (v.activeIds (t.node Tree.root).id).toList
    (fun id hid => by
      obtain ⟨n, hn, htip, hname⟩ := (h.names id).mp (SortedSet.mem_toList.mp hid)
      exact ⟨n, hC.inTree n hn, hname, htip.symm.imp_left And.left⟩)
    (SortedSet.empty.insert Tree.root)
  have heq : C' = C := by
    refine SortedSet.ext fun i => ?_
    simp only [hmem, SortedSet.mem_insert, SortedSet.not_mem_empty, or_false, SortedSet.mem_toList]
    constructor
    · rintro (rfl | ⟨n, hn, hid, hw⟩)
      · exact hC.root
      · obtain ⟨m, hm, _, hname⟩ := (h.names _).mp hid
        obtain rfl := w.eq_of_id (hC.inTree m hm) hn hname
        exact hC.mem_of_within hm hw
    · intro hi
      refine (eq_or_ne i Tree.root).imp_right fun hne => ?_
      obtain ⟨n, hn, hleaf, hw⟩ := h.leafed i hi hne
      exact ⟨n, hC.inTree n hn, (h.names _).mpr ⟨n, hn, Or.inl hleaf, rfl⟩, hw⟩
  rw [heq] at hC'
  exact toConfiguration_eq_ok.mpr ⟨hC', fun i hi => fits_of_legal w h.legal hi⟩

/-- **A value is read exactly as the legal configuration that it describes.**  What describes
none is refused with a fault of the transition. -/
theorem reads_iff_describes {name : String} {c : StateConfig} (h : Tree.build name c = .ok t)
    (v : StateValue) :
    (∀ C, Machine.sound (v.toConfiguration t) = .ok C ↔ Describes t v C) ∧
      ((∀ C, ¬ Describes t v C) →
        ∃ f, Machine.sound (v.toConfiguration t) = .error (.transition f)) := by
  have w : t.WellFormed := wellFormed_of_build h
  have hplain : t.PlainNames := plainNames_of_build h
  refine ⟨fun C => ⟨fun hread => ?_, fun hdescribes => ?_⟩, fun hnone => ?_⟩
  · exact describes_of_toConfiguration w hplain (Machine.sound_eq_ok.mp hread)
  · exact Machine.sound_eq_ok.mpr (toConfiguration_of_describes w hdescribes)
  · cases hread : v.toConfiguration t with
    | ok C => exact absurd (describes_of_toConfiguration w hplain hread) (hnone C)
    | error f => exact ⟨f, rfl⟩

/-- A parallel node with a compound region and a region without children. -/
def boothChart : StateConfig :=
  { StateConfig.blank with
    initial := some "p"
    states := [("p", { StateConfig.blank with
      type := some .parallel
      states := [
        ("a", { StateConfig.blank with
          initial := some "x"
          states := [("x", StateConfig.blank), ("y", StateConfig.blank)] }),
        ("b", StateConfig.blank)] })] }

/-- A key with a dot in it is read like two keys. -/
def dottedValue : StateValue :=
  .branch [("p", .branch [("b", .branch [])]), ("p.a", .leaf "y")]

/-- A value that leaves a region out describes nothing. -/
def partialValue : StateValue :=
  .branch [("p.a", .leaf "y")]

/-- One value of the booth describes a configuration, and one is refused. -/
theorem reads_iff_describes_boothChart : ∃ t C f, Tree.build "m" boothChart = .ok t ∧
    Describes t dottedValue C ∧ (∀ C', ¬ Describes t partialValue C') ∧
      Machine.sound (partialValue.toConfiguration t) = .error (.transition f) := by
  obtain ⟨t, ht, h⟩ := exists_of_run (x := Tree.build "m" boothChart)
    (p := fun t => (dottedValue.toConfiguration t).isOk && !(partialValue.toConfiguration t).isOk)
    (by decide +kernel)
  obtain ⟨hdotted, hpartial⟩ := Bool.and_eq_true_iff.mp h
  cases hread : dottedValue.toConfiguration t with
  | error f => rw [hread] at hdotted; cases hdotted
  | ok C =>
      have hnone : ∀ C', ¬ Describes t partialValue C' := fun C' hC' => by
        have hread := ((reads_iff_describes ht partialValue).1 C').mpr hC'
        rw [Machine.sound_eq_ok.mp hread] at hpartial
        cases hpartial
      obtain ⟨f, hf⟩ := (reads_iff_describes ht partialValue).2 hnone
      exact ⟨t, C, f, ht, ((reads_iff_describes ht dottedValue).1 C).mp
        (Machine.sound_eq_ok.mpr hread), hnone, hf⟩

end StateValue

end Statechart
