/-
What the active leaves pick.

Every active leaf walks from the inside out and picks the first enabled candidate that it comes
to (`Picks`).  The walks of two leaves that pass the same node are one from there on, so that
they pick the same or something below (`Picks.below_or_eq`).  What is proposed are these picks
in the order of the leaves, each under the leaf that was the first to pick it (`Traced`).

The order of the leaves is the order of the document, in which a subtree is a stretch of
numbers (`within_of_between`).
-/
import Statechart.Proofs.Step.Selection
import Statechart.Proofs.Tree.Faithful
import Statechart.Proofs.Tree.Letters

namespace Statechart

open Statechart.Tree Outcome

namespace Tree

variable {t : Tree} {name : String} {i a b e s : Nat}

/-- Between two nodes of a subtree there is nothing but nodes of that subtree. -/
theorem within_of_between {c : StateConfig} (h : build name c = .ok t) (he : e < t.size)
    (has : t.Within a s) (hes : t.Within e s) (hab : a ≤ b) (hbe : b ≤ e) : t.Within b s := by
  have hs : s < t.size := by
    rcases hes with rfl | hbelow
    · exact he
    · exact Nat.lt_trans hbelow.lt he
  obtain ⟨state, d, depth, hplaced⟩ := (exists_placed_of_build h).2 s hs
  obtain ⟨stop, -, hstretch⟩ := hplaced.stretch (wellFormed_of_build h)
  have hfirst := (hstretch a).mp has
  have hlast := (hstretch e).mp hes
  exact (hstretch b).mpr ⟨by omega, by omega⟩

/-- The way up from a node passes every node that it lies within. -/
theorem exists_way_up (h : t.Within i a) :
    ∃ lower, i :: t.ancestors i = lower ++ a :: t.ancestors a ∧ ∀ n ∈ lower, t.Below n a := by
  induction i using Nat.strong_induction_on with
  | _ i ih =>
      rcases h with rfl | hbelow
      · exact ⟨[], rfl, nofun⟩
      · obtain ⟨p, hp, hw⟩ := below_iff.mp hbelow
        obtain ⟨lower, hlower, hall⟩ := ih p (lt_of_parent hp) hw
        refine ⟨i :: lower, by rw [ancestors_of_parent hp, hlower, List.cons_append], ?_⟩
        intro n hn
        rcases List.mem_cons.mp hn with rfl | hn
        · exact hbelow
        · exact hall n hn

/-- Candidates of the tree for one event that agree in source and place are the same. -/
theorem eq_of_same (w : t.Lettered) {n m : Nat} {c d : Candidate}
    (hc : c ∈ (t.node n).candidates name) (hd : d ∈ (t.node m).candidates name)
    (h : c.same d = true) : c = d := by
  simp only [Candidate.same, Bool.and_eq_true, beq_iff_eq] at h
  obtain ⟨⟨hsource, -⟩, hindex⟩ := h
  obtain rfl : n = m := by rw [← w.source hc, ← w.source hd, hsource]
  unfold Node.candidates at hc hd
  split at hc
  · rename_i handler hfind
    rw [hfind] at hd
    have hhandler := List.mem_of_find?_eq_some hfind
    obtain ⟨i, hi⟩ := List.mem_iff_getElem?.mp hc
    obtain ⟨j, hj⟩ := List.mem_iff_getElem?.mp hd
    have hplace : i = j := by
      rw [← (w.candidate hhandler hi).2.2, ← (w.candidate hhandler hj).2.2, hindex]
    rw [hplace, hj] at hi
    exact (Option.some.inj hi).symm
  · exact absurd hc List.not_mem_nil

end Tree

namespace Selection

variable {t : Tree} {scope : GuardScope} {name : String} {config : NodeSet} {c d k : Candidate}
  {leaf : Nat} {l l' : List Candidate}

/-! ### The walk of a leaf -/

/-- A search along a list comes to a candidate: none before it is enabled. -/
def ComesTo (scope : GuardScope) (l : List Candidate) (c : Candidate) : Prop :=
  ∃ before after, l = before ++ c :: after ∧ ∀ b ∈ before, enabled scope b = .ok false

/-- The walk of a leaf, from the inside out, comes to a candidate and finds it enabled. -/
structure Picks (t : Tree) (scope : GuardScope) (name : String) (leaf : Nat) (c : Candidate) :
    Prop where
  comes : ComesTo scope (candidatesFrom t name leaf) c
  enabled : enabled scope c = .ok true

/-- The guard of a candidate is evaluated when an event is to be taken. -/
def Evaluates (t : Tree) (scope : GuardScope) (name : String) (config : NodeSet)
    (c : Candidate) : Prop :=
  ∃ leaf ∈ config, t.isLeaf leaf = true ∧ ComesTo scope (candidatesFrom t name leaf) c

theorem comesTo_cons {a : Candidate} : ComesTo scope (a :: l) c ↔
    c = a ∨ enabled scope a = .ok false ∧ ComesTo scope l c := by
  constructor
  · rintro ⟨before, after, heq, hall⟩
    cases before with
    | nil => exact Or.inl (List.cons.inj heq).1.symm
    | cons b rest =>
        obtain ⟨rfl, rfl⟩ := List.cons.inj heq
        exact Or.inr ⟨hall a (List.mem_cons_self ..), rest, after, rfl,
          fun x hx => hall x (List.mem_cons_of_mem _ hx)⟩
  · rintro (rfl | ⟨ha, before, after, rfl, hall⟩)
    · exact ⟨[], l, rfl, nofun⟩
    · exact ⟨a :: before, after, rfl, List.forall_mem_cons.mpr ⟨ha, hall⟩⟩

theorem ComesTo.mem (h : ComesTo scope l c) : c ∈ l := by
  obtain ⟨before, after, rfl, -⟩ := h
  exact List.mem_append_right _ (List.mem_cons_self ..)

/-- A search along two lists comes to the second when it is through with the first. -/
theorem comesTo_append : ComesTo scope (l ++ l') c ↔
    ComesTo scope l c ∨ (∀ b ∈ l, enabled scope b = .ok false) ∧ ComesTo scope l' c := by
  induction l with
  | nil =>
      refine ⟨fun h => Or.inr ⟨nofun, h⟩, ?_⟩
      rintro (h | ⟨-, h⟩)
      · exact absurd h.mem List.not_mem_nil
      · exact h
  | cons a rest ih =>
      rw [List.cons_append, comesTo_cons, comesTo_cons, ih, List.forall_mem_cons]
      tauto

/-- What a search finds is the first enabled candidate that it comes to. -/
theorem firstEnabled_eq_some : firstEnabled scope l = .ok (some c) ↔
    ComesTo scope l c ∧ enabled scope c = .ok true := by
  induction l with
  | nil => exact ⟨fun h => (by cases h), fun h => absurd h.1.mem List.not_mem_nil⟩
  | cons a rest ih =>
      rw [firstEnabled, bind_eq_ok, comesTo_cons]
      constructor
      · rintro ⟨found, ha, h⟩
        cases found with
        | true => cases h; exact ⟨Or.inl rfl, ha⟩
        | false =>
            obtain ⟨hcomes, hc⟩ := ih.mp h
            exact ⟨Or.inr ⟨ha, hcomes⟩, hc⟩
      · rintro ⟨rfl | ⟨ha, hcomes⟩, hc⟩
        · exact ⟨true, hc, rfl⟩
        · exact ⟨false, ha, ih.mpr ⟨hcomes, hc⟩⟩

/-- A search fails only at a candidate that it comes to. -/
theorem exists_firstEnabled (h : ∀ c, ComesTo scope l c → ∃ b, enabled scope c = .ok b) :
    ∃ found, firstEnabled scope l = .ok found := by
  induction l with
  | nil => exact ⟨none, rfl⟩
  | cons a rest ih =>
      obtain ⟨found, ha⟩ := h a (comesTo_cons.mpr (Or.inl rfl))
      rw [firstEnabled, ha]
      cases found with
      | true => exact ⟨some a, rfl⟩
      | false => exact ih fun c hc => h c (comesTo_cons.mpr (Or.inr ⟨ha, hc⟩))

theorem picks_iff :
    Picks t scope name leaf c ↔ firstEnabled scope (candidatesFrom t name leaf) = .ok (some c) :=
  ⟨fun h => firstEnabled_eq_some.mpr ⟨h.comes, h.enabled⟩,
    fun h => ⟨(firstEnabled_eq_some.mp h).1, (firstEnabled_eq_some.mp h).2⟩⟩

theorem Picks.unique (h : Picks t scope name leaf c) (h' : Picks t scope name leaf d) : c = d :=
  Option.some.inj (Except.ok.inj ((picks_iff.mp h).symm.trans (picks_iff.mp h')))

theorem mem_candidatesFrom : c ∈ candidatesFrom t name leaf ↔
    ∃ n, t.Within leaf n ∧ c ∈ (t.node n).candidates name := by
  rw [candidatesFrom, List.mem_flatMap]
  refine exists_congr fun n => and_congr_left' ?_
  rw [List.mem_cons, Within, eq_comm]
  rfl

theorem Picks.within (w : t.WellFormed) (h : Picks t scope name leaf c) :
    t.Within leaf c.source := by
  obtain ⟨n, hn, hc⟩ := mem_candidatesFrom.mp h.comes.mem
  rwa [w.source hc]

/-- The walk of a leaf below a node picks something below the node, or what a walk from the
node itself picks. -/
theorem Picks.below_or (w : t.WellFormed) {s : Nat} (hs : t.Within leaf s)
    (h : Picks t scope name leaf c) : t.Below c.source s ∨ Picks t scope name s c := by
  obtain ⟨lower, hlower, hbelow⟩ := exists_way_up hs
  have hsplit : candidatesFrom t name leaf =
      (lower.flatMap fun n => (t.node n).candidates name) ++ candidatesFrom t name s := by
    rw [candidatesFrom, hlower, List.flatMap_append]
    rfl
  have hcomes := h.comes
  rw [hsplit, comesTo_append] at hcomes
  rcases hcomes with hcomes | ⟨-, hcomes⟩
  · obtain ⟨n, hn, hc⟩ := List.mem_flatMap.mp hcomes.mem
    rw [w.source hc]
    exact Or.inl (hbelow n hn)
  · exact Or.inr ⟨hcomes, h.enabled⟩

/-- Walks that pass the source of a candidate that one of them picks pick the same, or
something below. -/
theorem Picks.below_or_eq (w : t.WellFormed) {other : Nat} (hk : Picks t scope name leaf k)
    (hother : t.Within other k.source) (hc : Picks t scope name other c) :
    t.Below c.source k.source ∨ c = k := by
  refine (hc.below_or w hother).imp_right fun hpass => ?_
  rcases hk.below_or w (hk.within w) with hself | hpass'
  · exact absurd hself not_below_self
  · exact hpass.unique hpass'

/-! ### The list of proposals -/

/-- Candidates with the leaves that were the first to pick them, in order. -/
structure Traced (t : Tree) (scope : GuardScope) (name : String) (config : NodeSet)
    (picks : List (Nat × Candidate)) : Prop where
  ascending : (picks.map Prod.fst).Pairwise (· < ·)
  active : ∀ p ∈ picks, p.1 ∈ config ∧ t.isLeaf p.1 = true
  picked : ∀ p ∈ picks, Picks t scope name p.1 p.2
  apart : picks.Pairwise fun p q => p.2.same q.2 = false

/-- One leaf more, behind those that have been asked. -/
theorem Traced.propose {picks : List (Nat × Candidate)} (h : Traced t scope name config picks)
    (hlater : ∀ p ∈ picks, p.1 < leaf) (hleaf : leaf ∈ config) (hisLeaf : t.isLeaf leaf = true)
    {proposed : List Candidate}
    (hstep : Selection.propose t scope name (picks.map Prod.snd) leaf = .ok proposed) :
    ∃ more, (∀ p ∈ more, p.1 = leaf) ∧ Traced t scope name config (picks ++ more) ∧
      proposed = (picks ++ more).map Prod.snd ∧
      ∀ c, Picks t scope name leaf c → ∃ d ∈ proposed, d.same c = true := by
  unfold Selection.propose at hstep
  obtain ⟨found, hfound, hstep⟩ := bind_eq_ok.mp hstep
  cases found with
  | none =>
      cases hstep
      refine ⟨[], nofun, by rwa [List.append_nil], by rw [List.append_nil], fun c hc => ?_⟩
      have hnone := hfound.symm.trans (picks_iff.mp hc)
      cases hnone
  | some a =>
      have ha : Picks t scope name leaf a := picks_iff.mpr hfound
      dsimp only at hstep
      split at hstep
      · rename_i hknown
        cases hstep
        refine ⟨[], nofun, by rwa [List.append_nil], by rw [List.append_nil], fun c hc => ?_⟩
        obtain rfl := hc.unique ha
        exact List.any_eq_true.mp hknown
      · rename_i hnew
        cases hstep
        refine ⟨[(leaf, a)], by simp, ⟨?_, ?_, ?_, ?_⟩, by simp, fun c hc => ?_⟩
        · rw [List.map_append, List.pairwise_append]
          exact ⟨h.ascending, List.pairwise_singleton _ _, by simpa using hlater⟩
        · intro p hp
          rcases List.mem_append.mp hp with hp | hp
          · exact h.active p hp
          · rw [List.mem_singleton.mp hp]
            exact ⟨hleaf, hisLeaf⟩
        · intro p hp
          rcases List.mem_append.mp hp with hp | hp
          · exact h.picked p hp
          · rw [List.mem_singleton.mp hp]
            exact ha
        · refine List.pairwise_append.mpr ⟨h.apart, List.pairwise_singleton _ _, ?_⟩
          intro p hp q hq
          rw [List.mem_singleton.mp hq]
          refine Bool.eq_false_iff.mpr fun hsame => hnew (List.any_eq_true.mpr ?_)
          exact ⟨p.2, List.mem_map_of_mem hp, hsame⟩
        · obtain rfl := hc.unique ha
          refine ⟨c, List.mem_append_right _ (List.mem_singleton.mpr rfl), ?_⟩
          simp [Candidate.same]

/-- The leaves are asked in ascending order, so that each comes behind those before it. -/
theorem Traced.proposeAll {leaves : List Nat} : ∀ {picks : List (Nat × Candidate)},
    Traced t scope name config picks → leaves.Pairwise (· < ·) →
      (∀ leaf ∈ leaves, leaf ∈ config ∧ t.isLeaf leaf = true) →
      (∀ p ∈ picks, ∀ leaf ∈ leaves, p.1 < leaf) → ∀ {proposed : List Candidate},
      leaves.foldlM (Selection.propose t scope name) (picks.map Prod.snd) = .ok proposed →
      ∃ more, Traced t scope name config (picks ++ more) ∧
        proposed = (picks ++ more).map Prod.snd ∧
        ∀ leaf ∈ leaves, ∀ c, Picks t scope name leaf c → ∃ d ∈ proposed, d.same c = true := by
  induction leaves with
  | nil =>
      intro picks htraced _ _ _ proposed h
      cases h
      exact ⟨[], by rwa [List.append_nil], by rw [List.append_nil], nofun⟩
  | cons first rest ih =>
      intro picks htraced hascending hactive hbefore proposed h
      rw [List.foldlM_cons] at h
      obtain ⟨middle, hfirst, h⟩ := bind_eq_ok.mp h
      obtain ⟨hleaf, hisLeaf⟩ := hactive first (List.mem_cons_self ..)
      obtain ⟨own, hown, htraced', rfl, hfound⟩ :=
        htraced.propose (fun p hp => hbefore p hp first (List.mem_cons_self ..)) hleaf hisLeaf
          hfirst
      have hlater : ∀ p ∈ picks ++ own, ∀ leaf ∈ rest, p.1 < leaf := by
        intro p hp leaf hleaf
        rcases List.mem_append.mp hp with hp | hp
        · exact hbefore p hp leaf (List.mem_cons_of_mem _ hleaf)
        · rw [hown p hp]
          exact List.rel_of_pairwise_cons hascending hleaf
      obtain ⟨more, htraced'', rfl, hall⟩ := ih htraced' hascending.of_cons
        (fun leaf hleaf => hactive leaf (List.mem_cons_of_mem _ hleaf)) hlater h
      refine ⟨own ++ more, by rwa [← List.append_assoc], by rw [← List.append_assoc], ?_⟩
      intro leaf hleaf c hc
      rcases List.mem_cons.mp hleaf with rfl | hleaf
      · obtain ⟨d, hd, hsame⟩ := hfound c hc
        refine ⟨d, ?_, hsame⟩
        rw [List.map_append]
        exact List.mem_append_left _ hd
      · exact hall leaf hleaf c hc

/-- **What is proposed are the picks of the active leaves in order, each once.** -/
theorem exists_traced (w : t.Lettered) {proposed : List Candidate}
    (h : proposals t scope name config = .ok proposed) :
    ∃ picks, Traced t scope name config picks ∧ proposed = picks.map Prod.snd ∧
      ∀ leaf ∈ config, t.isLeaf leaf = true → ∀ c, Picks t scope name leaf c → c ∈ proposed := by
  have hleaves : ∀ leaf, leaf ∈ config.toList.filter t.isLeaf ↔
      leaf ∈ config ∧ t.isLeaf leaf = true := fun leaf => by
    rw [List.mem_filter, SortedSet.mem_toList]
  have hascending : (config.toList.filter t.isLeaf).Pairwise (· < ·) :=
    (config.ascending.imp fun hlt => Nat.compare_eq_lt.mp hlt).filter _
  have hnone : Traced t scope name config [] := ⟨.nil, nofun, nofun, .nil⟩
  obtain ⟨picks, htraced, rfl, hall⟩ :=
    hnone.proposeAll hascending (fun leaf => (hleaves leaf).mp) nofun h
  refine ⟨picks, htraced, rfl, fun leaf hleaf hisLeaf c hc => ?_⟩
  obtain ⟨d, hd, hsame⟩ := hall leaf ((hleaves leaf).mpr ⟨hleaf, hisLeaf⟩) c hc
  obtain ⟨p, hp, rfl⟩ := List.mem_map.mp hd
  obtain ⟨n, -, hpn⟩ := mem_candidatesFrom.mp (htraced.picked p hp).comes.mem
  obtain ⟨m, -, hcm⟩ := mem_candidatesFrom.mp hc.comes.mem
  rwa [← eq_of_same w hpn hcm hsame]

end Selection

end Statechart
