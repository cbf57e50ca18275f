/-
The three kinds of targets.

A target is entered as itself, as what a history node remembers, or as the parent of a
history node that remembers nothing.  Each time the set that the code builds first is the
descent from the `seeds`, and the nodes that it passes afterwards are exactly those on
the way to the domain, so that `mem_grown_of_way` says what has been entered in the end.
`mem_transition` is the one statement about all three.

The last section shows that the seeds are what that statement asks for: whatever a history
node has been made to remember, no two of its nodes are in one line.  For the seeds to grow
into a configuration as well, the record has to come from a coherent one, in which what is
active together below a node agrees on one child of every compound node.
-/
import Statechart.Proofs.Configuration.Legal
import Statechart.Proofs.Entry.Growth

namespace Statechart.Entry

open Statechart.Tree

variable {t : Tree} {D T P a n i : Nat} {L : List Nat} {E config : NodeSet}
  {history : HistoryStore}

/-- A node above which the walk to a domain ends: below it, or the root. -/
def Under (t : Tree) (n D : Nat) : Prop := t.Below n D ∨ (n = Tree.root ∧ D = Tree.root)

theorem Under.within (h : Under t n D) : t.Within n D := by
  rcases h with h | ⟨rfl, rfl⟩
  · exact h.within
  · exact within_self

/-- The walk up to the domain passes what lies between. -/
theorem mem_takeWhile_ancestors (w : t.WellFormed) (h : Under t n D) :
    a ∈ (t.ancestors n).takeWhile (fun a => a != D) ↔ t.Below n a ∧ t.Below a D := by
  induction n using Nat.strong_induction_on with
  | _ n ih =>
      rcases h with h | ⟨rfl, rfl⟩
      · obtain ⟨p, hp, hw⟩ := below_iff.mp h
        rw [ancestors_of_parent hp, List.takeWhile_cons, below_iff_of_parent hp]
        rcases hw with rfl | hb
        · rw [bne_self_eq_false, if_neg Bool.false_ne_true]
          constructor
          · intro h; exact absurd h List.not_mem_nil
          · rintro ⟨hpa, hap⟩; exact absurd hpa hap.not_within
        · have hne : (p != D) = true := bne_iff_ne.mpr (Nat.ne_of_gt hb.lt)
          rw [if_pos hne, List.mem_cons, ih p (lt_of_parent hp) (Or.inl hb)]
          constructor
          · rintro (rfl | ⟨hpa, haD⟩)
            · exact ⟨within_self, hb⟩
            · exact ⟨hpa.within, haD⟩
          · rintro ⟨hpa, haD⟩
            rcases hpa with rfl | hpa
            · exact Or.inl rfl
            · exact Or.inr ⟨hpa, haD⟩
      · rw [ancestors_of_no_parent w.root_parent]
        constructor
        · intro h; exact absurd h List.not_mem_nil
        · rintro ⟨h, _⟩; exact absurd h (not_below_of_no_parent w.root_parent)

/-! ### One seed -/

/-- A node and its descent, and then the way up from it. -/
theorem mem_ancestors_single (w : t.WellFormed) (hn : Under t n D) (hL : Scattered t D [n])
    (hE : ∀ j ∈ E, ¬ t.Below j D) (hconfig : ∀ j ∈ config, ¬ t.Below j D) {E' : NodeSet}
    (hE' : ∀ i, i ∈ E' ↔ i ∈ E ∨ Descent t n i) (i : Nat) :
    i ∈ ancestors t config D E' n ↔ i ∈ E ∨ Grown t D [n] i := by
  rw [ancestors]
  refine mem_grown_of_way w hL hE hconfig (fun i => ?_) (fun a => ?_) i
  · rw [hE' i]
    simp
  · rw [mem_takeWhile_ancestors w hn, OnWay]
    simp

/-- A target that is no history node. -/
theorem mem_transition_node (w : t.WellFormed) (hT : t.isHistory T = false) (hn : Under t T D)
    (hL : Scattered t D [T]) (hE : ∀ j ∈ E, ¬ t.Below j D) (hconfig : ∀ j ∈ config, ¬ t.Below j D)
    (i : Nat) : i ∈ transition t history config E (T, D) ↔ i ∈ E ∨ Grown t D [T] i := by
  rw [transition, target, hT, if_neg Bool.false_ne_true]
  refine mem_ancestors_single w hn hL hE hconfig (fun i => ?_) i
  exact mem_withDefaults w (fun j hj hb => hE j hj (hb.below hn.within)) i

/-- A history node that remembers nothing stands for its parent. -/
theorem mem_transition_parent (w : t.WellFormed) (hP : t.parent T = some P) (hn : t.Below T D)
    (hL : Scattered t D [P]) (hE : ∀ j ∈ E, ¬ t.Below j D) (hconfig : ∀ j ∈ config, ¬ t.Below j D)
    (hi : i ≠ D) :
    i ∈ ancestors t config D (defaults t P E) T ↔ i ∈ E ∨ Grown t D [P] i := by
  have hPD : t.Within P D := (below_iff_of_parent hP).mp hn
  have hfresh : ∀ j ∈ E, ¬ t.Below j P := fun j hj hb => hE j hj (hb.below hPD)
  have hdefaults := mem_defaults w hfresh
  rw [ancestors, ancestors_of_parent hP, List.takeWhile_cons]
  rcases hPD with rfl | hPD
  · rw [bne_self_eq_false, if_neg Bool.false_ne_true, List.foldl_nil, hdefaults i, Grown]
    refine or_congr_right ?_
    constructor
    · rintro ⟨m, hstep, h⟩
      exact Or.inl ⟨P, List.mem_singleton.mpr rfl, .head hstep h⟩
    · rintro (⟨n, hn, h⟩ | ⟨n, hn, hni, hi⟩ | ⟨p, _, ⟨n, hn, hnp, hp⟩, _⟩)
      · rw [List.mem_singleton.mp hn] at h
        rcases descent_iff.mp h with rfl | h
        · exact absurd rfl hi
        · exact h
      · rw [List.mem_singleton.mp hn] at hni
        exact absurd hni.within hi.not_within
      · rw [List.mem_singleton.mp hn] at hnp
        exact absurd hnp.within hp.not_within
  · have hne : (P != D) = true := bne_iff_ne.mpr (Nat.ne_of_gt hPD.lt)
    rw [if_pos hne, List.foldl_cons]
    refine mem_ancestors_single w (Or.inl hPD) hL hE hconfig (fun i => ?_) i
    -- passing the parent adds the parent itself only: its regions have all been entered
    rw [mem_ancestor w (fun j hj hb => hconfig j hj (hb.trans hPD)), hdefaults i, descent_iff]
    constructor
    · rintro ((h | h) | h | ⟨hkind, r, hr, hbare, _⟩)
      · exact Or.inl h
      · exact Or.inr (Or.inr h)
      · exact Or.inr (Or.inl h)
      · have hmem : r ∈ defaults t P E := (hdefaults r).mpr (Or.inr ⟨r, .region hkind hr, .refl⟩)
        exact absurd within_self (hbare r hmem)
    · rintro (h | h | h)
      · exact Or.inl (Or.inl h)
      · exact Or.inr (Or.inl h)
      · exact Or.inl (Or.inr h)

/-! ### Several seeds -/

/-- Seeds are entered with their descents one after the other. -/
theorem mem_foldl_withDefaults (w : t.WellFormed) {l : List Nat} (hnodup : l.Nodup)
    (hapart : ∀ n ∈ l, ∀ m ∈ l, ¬ t.Below n m) :
    ∀ {E : NodeSet}, (∀ n ∈ l, ∀ j ∈ E, ¬ t.Below j n) →
      ∀ i, i ∈ l.foldl (withDefaults t) E ↔ i ∈ E ∨ ∃ n ∈ l, Descent t n i := by
  induction l with
  | nil => intro E _ i; simp
  | cons n rest ih =>
      intro E hE i
      obtain ⟨hn, hrest⟩ := List.nodup_cons.mp hnodup
      have hself : n ∈ n :: rest := List.mem_cons_self ..
      have hmem := mem_withDefaults w (hE n hself)
      have hE' : ∀ m ∈ rest, ∀ j ∈ withDefaults t E n, ¬ t.Below j m := by
        intro m hm j hj hb
        have hm' : m ∈ n :: rest := List.mem_cons_of_mem _ hm
        rcases (hmem j).mp hj with hj | hj
        · exact hE m hm' j hj hb
        · rcases (hj.within w).comparable hb.within with h | h
          · rcases h with rfl | h
            · exact hn hm
            · exact hapart n hself m hm' h
          · rcases h with rfl | h
            · exact hn hm
            · exact hapart m hm' n hself h
      rw [List.foldl_cons, ih hrest (fun a ha b hb =>
        hapart a (List.mem_cons_of_mem _ ha) b (List.mem_cons_of_mem _ hb)) hE' i, hmem i]
      constructor
      · rintro ((h | h) | ⟨m, hm, h⟩)
        · exact Or.inl h
        · exact Or.inr ⟨n, hself, h⟩
        · exact Or.inr ⟨m, List.mem_cons_of_mem _ hm, h⟩
      · rintro (h | ⟨m, hm, h⟩)
        · exact Or.inl (Or.inl h)
        · rcases List.mem_cons.mp hm with rfl | hm
          · exact Or.inl (Or.inr h)
          · exact Or.inr ⟨m, hm, h⟩

/-- A history node that remembers nodes below its parent stands for them. -/
theorem mem_transition_restored (w : t.WellFormed) (hP : t.parent T = some P) (hn : t.Below T D)
    (hbelow : ∀ n ∈ L, t.Below n P) (hL : Scattered t D L) (hE : ∀ j ∈ E, ¬ t.Below j D)
    (hconfig : ∀ j ∈ config, ¬ t.Below j D) (i : Nat) :
    i ∈ ancestors t config D (restored t config P L E) T ↔ i ∈ E ∨ Grown t D L i := by
  have hPD : t.Within P D := (below_iff_of_parent hP).mp hn
  rw [ancestors, restored]
  have hflat : ∀ S : NodeSet, L.foldl (ancestors t config P) S =
      (L.flatMap fun n => (t.ancestors n).takeWhile fun a => a != P).foldl
        (ancestor t config) S := by
    intro S
    rw [List.foldl_flatMap]
    rfl
  rw [hflat, ← List.foldl_append]
  refine mem_grown_of_way w hL hE hconfig ?_ (fun a => ?_) i
  · exact mem_foldl_withDefaults w hL.nodup hL.apart
      (fun n hn j hj hb => hE j hj (hb.below (hL.within n hn)))
  · rw [List.mem_append, List.mem_flatMap, mem_takeWhile_ancestors w (Or.inl hn),
      below_iff_of_parent hP]
    constructor
    · rintro (⟨n, hn, ha⟩ | ⟨hPa, haD⟩)
      · obtain ⟨hna, haP⟩ := (mem_takeWhile_ancestors w (Or.inl (hbelow n hn))).mp ha
        exact ⟨n, hn, hna, haP.below hPD⟩
      · obtain ⟨n, hn⟩ := List.exists_mem_of_ne_nil L hL.nonempty
        exact ⟨n, hn, (hbelow n hn).below hPa, haD⟩
    · rintro ⟨n, hn, hna, haD⟩
      rcases hna.within.comparable (hbelow n hn).within with h | h
      · rcases h with rfl | h
        · exact Or.inr ⟨within_self, haD⟩
        · exact Or.inl ⟨n, hn, (mem_takeWhile_ancestors w (Or.inl (hbelow n hn))).mpr ⟨hna, h⟩⟩
      · exact Or.inr ⟨h, haD⟩

/-! ### Every target -/

/-- **What a transition enters besides its domain.** -/
theorem mem_transition (w : t.WellFormed) (hn : Under t T D)
    (hrecord : ∀ P r, t.parent T = some P → history.get? T = some r → ∀ n ∈ r.nodes, t.Below n P)
    (hL : Scattered t D (seeds t history T)) (hE : ∀ j ∈ E, ¬ t.Below j D)
    (hconfig : ∀ j ∈ config, ¬ t.Below j D) (hi : i ≠ D) :
    i ∈ transition t history config E (T, D) ↔
      i ∈ E ∨ Grown t D (seeds t history T) i := by
  cases hT : t.isHistory T with
  | false =>
      have hseeds : seeds t history T = [T] := by rw [seeds, hT, if_neg Bool.false_ne_true]
      rw [hseeds] at hL ⊢
      exact mem_transition_node w hT hn hL hE hconfig i
  | true =>
      rcases hn with hn | ⟨rfl, rfl⟩
      · obtain ⟨P, hP, -⟩ := below_iff.mp hn
        rw [transition, target, hT, if_pos rfl]
        rw [seeds, hT, if_pos rfl] at hL ⊢
        simp only [hP] at hL ⊢
        cases hr : history.get? T with
        | none =>
            rw [hr] at hL
            exact mem_transition_parent w hP hn hL hE hconfig hi
        | some r =>
            obtain ⟨kind, nodes⟩ := r
            rw [hr] at hL
            cases nodes with
            | nil => exact mem_transition_parent w hP hn hL hE hconfig hi
            | cons n rest =>
                exact mem_transition_restored w hP hn (hrecord P _ hP hr) hL hE hconfig i
      · rw [w.root_kind] at hT
        cases hT

/-! ### Where seeds come from -/

/-- A single node is a seed for itself. -/
theorem seeds_single (hn : t.Within n D) (hlt : n < t.size) (hactive : t.isHistory n = false) :
    Seeds t D [n] where
  nonempty := by simp
  nodup := List.nodup_singleton n
  within m hm := by rwa [List.mem_singleton.mp hm]
  inTree m hm := by rwa [List.mem_singleton.mp hm]
  active m hm := by rwa [List.mem_singleton.mp hm]
  apart m hm k hk := by
    rw [List.mem_singleton.mp hm, List.mem_singleton.mp hk]
    exact not_below_self
  agree p b c _ hb hc m hm k hk hmb hkc := by
    rw [List.mem_singleton.mp hm] at hmb
    rw [List.mem_singleton.mp hk] at hkc
    exact eq_of_within_children hb hc hmb hkc

/-- What a history node remembers of a coherent configuration was active below its parent. -/
theorem mem_remembered (w : t.WellFormed) {kind : HistoryKind}
    (h : n ∈ HistoryStore.remembered t kind P config) : n ∈ config ∧ t.Below n P := by
  cases kind with
  | shallow =>
      obtain ⟨hregion, hn⟩ := List.mem_filter.mp h
      exact ⟨by simpa using hn, below_of_parent (w.mem_regions.mp hregion).1⟩
  | deep =>
      obtain ⟨hn, h⟩ := List.mem_filter.mp h
      rw [Bool.and_eq_true, isDescendant_iff] at h
      exact ⟨hn, h.2⟩

theorem nodup_remembered (w : t.WellFormed) (kind : HistoryKind) :
    (HistoryStore.remembered t kind P config).Nodup := by
  cases kind with
  | shallow => exact (w.nodup_regions P).filter _
  | deep => exact config.nodup_toList.filter _

/-- Of two remembered nodes neither lies below the other: siblings, or leaves. -/
theorem remembered_apart (w : t.WellFormed) {kind : HistoryKind} {m : Nat}
    (hn : n ∈ HistoryStore.remembered t kind P config)
    (hm : m ∈ HistoryStore.remembered t kind P config) : ¬ t.Below n m := by
  intro hb
  cases kind with
  | shallow =>
      have hnP := (w.mem_regions.mp (List.mem_filter.mp hn).1).1
      have hmP := (w.mem_regions.mp (List.mem_filter.mp hm).1).1
      rw [eq_of_within_of_parent hnP hmP hb.within] at hb
      exact not_below_self hb
  | deep =>
      have hleaf := (List.mem_filter.mp hm).2
      rw [w.isLeaf_of_below hb, Bool.false_and] at hleaf
      cases hleaf

/-- What is remembered of any set of nodes is scattered. -/
theorem scattered_remembered (w : t.WellFormed) {kind : HistoryKind} (hP : t.Within P D)
    (hne : HistoryStore.remembered t kind P config ≠ []) :
    Scattered t D (HistoryStore.remembered t kind P config) where
  nonempty := hne
  nodup := nodup_remembered w kind
  within _ hn := ((mem_remembered w hn).2.below hP).within
  inTree n hn := by
    obtain ⟨p, hp, _⟩ := below_iff.mp (mem_remembered w hn).2
    exact lt_size_of_parent hp
  active n hn := by
    cases kind with
    | shallow => exact (w.mem_regions.mp (List.mem_filter.mp hn).1).2
    | deep => exact isHistory_of_isLeaf (Bool.and_eq_true_iff.mp (List.mem_filter.mp hn).2).1
  apart _ hn _ hm := remembered_apart w hn hm

theorem seeds_remembered (w : t.WellFormed) {kind : HistoryKind} (hconfig : Coherent t config)
    (hP : t.Within P D) (hne : HistoryStore.remembered t kind P config ≠ []) :
    Seeds t D (HistoryStore.remembered t kind P config) where
  toScattered := scattered_remembered w hP hne
  agree _ _ _ hp hb hc _ hn _ hm hnb hmc :=
    hconfig.child_unique w hp hb hc (hconfig.mem_of_within (mem_remembered w hn).1 hnb)
      (hconfig.mem_of_within (mem_remembered w hm).1 hmc)

/-- The record of a history node was made for its parent. -/
theorem parent_of_remembers (w : t.WellFormed) {Q : NodeSet → Prop} {r : HistoryRecord}
    {parent : Nat} (h : Remembers t Q T r parent config) (hP : t.parent T = some P) :
    parent = P := by
  have hchild := w.mem_children.mp (List.mem_filter.mp h.child).1
  rw [hP] at hchild
  exact (Option.some.inj hchild).symm

theorem below_of_record (w : t.WellFormed) {Q : NodeSet → Prop} (hmade : MadeFrom t Q history)
    (P : Nat) (r : HistoryRecord) (hP : t.parent T = some P) (hr : history.get? T = some r) :
    ∀ n ∈ r.nodes, t.Below n P := by
  obtain ⟨parent, C, hremembers⟩ := hmade.remembers hr
  cases parent_of_remembers w hremembers hP
  rw [hremembers.nodes]
  exact fun n hn => (mem_remembered w hn).2

/-- A target stands for one node, or for what is remembered of a configuration that has been
recorded. -/
theorem seeds_cases (w : t.WellFormed) (hT : T < t.size) (hn : Under t T D)
    {Q : NodeSet → Prop} (hmade : MadeFrom t Q history) :
    (∃ n, seeds t history T = [n] ∧ t.Within n D ∧ n < t.size ∧ t.isHistory n = false) ∨
      ∃ kind P C, seeds t history T = HistoryStore.remembered t kind P C ∧ Q C ∧
        t.Within P D ∧ HistoryStore.remembered t kind P C ≠ [] := by
  unfold seeds
  cases hhistory : t.isHistory T with
  | false =>
      rw [if_neg Bool.false_ne_true]
      exact Or.inl ⟨T, rfl, hn.within, hT, hhistory⟩
  | true =>
      rcases hn with hn | ⟨rfl, rfl⟩
      · rw [if_pos rfl]
        obtain ⟨P, hP, hPD⟩ := below_iff.mp hn
        simp only [hP]
        split
        · rename_i kind n rest hr
          obtain ⟨parent, C, hremembers⟩ := hmade.remembers hr
          cases parent_of_remembers w hremembers hP
          have hnodes : n :: rest = HistoryStore.remembered t kind P C := hremembers.nodes
          exact Or.inr ⟨kind, P, C, hnodes, hremembers.holds, hPD, hnodes ▸ List.cons_ne_nil _ _⟩
        · exact Or.inl ⟨P, rfl, hPD, Nat.lt_trans (lt_of_parent hP) hT, w.isHistory_of_child hP⟩
      · rw [w.root_kind] at hhistory
        cases hhistory

/-- The seeds of a target are scattered, whatever the histories come from. -/
theorem seeds_scattered (w : t.WellFormed) (hT : T < t.size) (hn : Under t T D)
    {Q : NodeSet → Prop} (hmade : MadeFrom t Q history) : Scattered t D (seeds t history T) := by
  rcases seeds_cases w hT hn hmade with ⟨n, hseeds, hnD, hlt, hactive⟩ |
    ⟨kind, P, C, hseeds, _, hPD, hne⟩ <;> rw [hseeds]
  · exact (seeds_single hnD hlt hactive).toScattered
  · exact scattered_remembered w hPD hne

/-- **The seeds of a target are good**, when the histories come from coherent configurations. -/
theorem seeds_good (w : t.WellFormed) (hT : T < t.size) (hn : Under t T D)
    (hmade : MadeFrom t (Coherent t) history) : Seeds t D (seeds t history T) := by
  rcases seeds_cases w hT hn hmade with ⟨n, hseeds, hnD, hlt, hactive⟩ |
    ⟨kind, P, C, hseeds, hC, hPD, hne⟩ <;> rw [hseeds]
  · exact seeds_single hnD hlt hactive
  · exact seeds_remembered w hC hPD hne

end Statechart.Entry
