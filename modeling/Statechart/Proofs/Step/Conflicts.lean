/-
Which proposals lose, and to what.

A proposal that is kept may be dropped again when one from further inside conflicts with it,
and until then it may have kept others out.  Nothing is lost by that.  Whatever is dropped
has a rival that is kept in the end, and the rival does not stand above it.

Two things carry this.  First, candidates whose sources are in one line conflict as soon as
both exit anything (`conflict_of_within`), so that a chain of droppings from further and
further inside ends at one rival.  Second, a candidate that has kept another one out is never
dropped (`Traced.ordered`): what drops it comes from a later leaf below its source, the other
one came from a leaf in between, and the walk of that leaf passed the same source and would
have picked the same candidate.
-/
import Statechart.Proofs.Step.Picks
import Statechart.Proofs.Value.Described

namespace Statechart

open Statechart.Tree Outcome

namespace Selection

variable {t : Tree} {scope : GuardScope} {name : String} {config : NodeSet} {c d k : Candidate}

/-! ### Conflicts -/

/-- A candidate exits a node. -/
def Exits (t : Tree) (config : NodeSet) (c : Candidate) (i : Nat) : Prop :=
  ∃ exits, t.exitSet config c = .ok exits ∧ i ∈ exits

/-- Two candidates exit the same node. -/
def Conflict (t : Tree) (config : NodeSet) (a b : Candidate) : Prop :=
  ∃ i, Exits t config a i ∧ Exits t config b i

theorem Conflict.symm (h : Conflict t config c d) : Conflict t config d c := by
  obtain ⟨i, hc, hd⟩ := h
  exact ⟨i, hd, hc⟩

theorem exits_iff (w : t.WellFormed) (hc : Proposed t config name c) {i : Nat} :
    Exits t config c i ↔ ∃ x D, Moves t c x D ∧ i ∈ config ∧ t.Below i D := by
  constructor
  · rintro ⟨exits, hexits, hi⟩
    cases hlabel : c.target with
    | none =>
        rw [exitSet, hlabel] at hexits
        cases hexits
        exact absurd hi SortedSet.not_mem_empty
    | some label =>
        obtain ⟨x, hx⟩ := hc.exists_target w hlabel
        have hmoves : Moves t c x (t.domain c x) := ⟨⟨label, hlabel, hx⟩, rfl⟩
        obtain rfl := Except.ok.inj (hexits.symm.trans (exitSet_of_moves hmoves))
        exact ⟨x, _, hmoves, mem_activeBelow.mp hi⟩
  · rintro ⟨x, D, hmoves, hi⟩
    exact ⟨_, exitSet_of_moves hmoves, mem_activeBelow.mpr hi⟩

/-- The source of a candidate is at its domain or below it. -/
theorem within_domain (w : t.WellFormed) (hC : Coherent t config)
    (hc : Proposed t config name c) {x D : Nat} (h : Moves t c x D) : t.Within c.source D := by
  rw [h.domain]
  rcases domain_cases t c x with ⟨hD, -⟩ | ⟨hD, -⟩ | hD
  · rw [hD]
    exact within_self
  · exact hD.within
  · rw [hD]
    exact w.within_root (hC.inTree _ (hc.source w hC).1)

/-- **Candidates in one line conflict when both exit something.** -/
theorem conflict_of_within (w : t.WellFormed) (hC : Coherent t config)
    (hc : Proposed t config name c) (hd : Proposed t config name d)
    (hline : t.Within c.source d.source) {i j : Nat} (hi : Exits t config c i)
    (hj : Exits t config d j) : Conflict t config c d := by
  have hci := hi
  have hdj := hj
  obtain ⟨x, D, hD, hiC, hiD⟩ := (exits_iff w hc).mp hi
  obtain ⟨y, F, hF, hjC, hjF⟩ := (exits_iff w hd).mp hj
  have hcD := within_domain w hC hc hD
  have hcF := hline.trans (within_domain w hC hd hF)
  rcases hcD.comparable hcF with hDF | hFD
  · exact ⟨i, hci, (exits_iff w hd).mpr ⟨y, F, hF, hiC, hiD.below hDF⟩⟩
  · exact ⟨j, (exits_iff w hc).mpr ⟨x, D, hD, hjC, hjF.below hFD⟩, hdj⟩

/-! ### What keeps a candidate out -/

/-- Of three proposals in order the second stands below the first if the third does. -/
def Ordered (t : Tree) (proposed : List Candidate) : Prop :=
  ∀ k c d, [k, c, d].Sublist proposed → t.Below d.source k.source → t.Below c.source k.source

/-- **Picks are ordered.**  The leaf in the middle lies in the same subtree, so that its walk
passes the source of the first pick; it has picked something else, so something below. -/
theorem Traced.ordered {chart : StateConfig} {root : String} (h : build root chart = .ok t)
    {picks : List (Nat × Candidate)} (htraced : Traced t scope name config picks)
    (hinTree : ∀ i ∈ config, i < t.size) : Ordered t (picks.map Prod.snd) := by
  have w := wellFormed_of_build h
  intro k c d hsub hdk
  obtain ⟨three, hthree, heq⟩ := List.sublist_map_iff.mp hsub
  obtain ⟨⟨a, k'⟩, two, rfl, rfl, htwo⟩ := List.map_eq_cons_iff.mp heq.symm
  obtain ⟨⟨b, c'⟩, one, rfl, rfl, hone⟩ := List.map_eq_cons_iff.mp htwo
  obtain ⟨⟨e, d'⟩, none, rfl, rfl, -⟩ := List.map_eq_cons_iff.mp hone
  have hmem : ∀ p ∈ (a, k') :: (b, c') :: (e, d') :: none, p ∈ picks := fun p hp =>
    hthree.subset hp
  have hk := htraced.picked (a, k') (hmem _ (by simp))
  have hc := htraced.picked (b, c') (hmem _ (by simp))
  have hd := htraced.picked (e, d') (hmem _ (by simp))
  have hascending := htraced.ascending.sublist (hthree.map Prod.fst)
  have hapart := htraced.apart.sublist hthree
  simp only [List.map_cons, List.pairwise_cons, List.mem_cons, forall_eq_or_imp] at hascending
  have hab : a < b := hascending.1.1
  have hbe : b < e := hascending.2.1.1
  have hbetween : t.Within b k'.source :=
    within_of_between h (hinTree e (htraced.active (e, d') (hmem _ (by simp))).1) (hk.within w)
      ((hd.within w).below hdk).within (Nat.le_of_lt hab)
      (Nat.le_of_lt hbe)
  refine (hk.below_or_eq w hbetween hc).resolve_right fun hsame => ?_
  rw [List.pairwise_cons] at hapart
  have hdiffer := hapart.1 (b, c') (List.mem_cons_self ..)
  rw [hsame] at hdiffer
  simp [Candidate.same] at hdiffer

/-- A kept candidate that keeps another one out, for good: it conflicts with it, and either
stands below it or came first and does not stand above it. -/
structure Beats (t : Tree) (config : NodeSet) (proposed : List Candidate) (k c : Candidate) :
    Prop where
  conflict : Conflict t config k c
  side : t.Below k.source c.source ∨
    [k, c].Sublist proposed ∧ ¬ t.Below c.source k.source

theorem Beats.not_below {proposed : List Candidate} (h : Beats t config proposed k c) :
    ¬ t.Below c.source k.source := by
  rcases h.side with hbelow | ⟨-, hnot⟩
  · exact fun hup => not_below_self (hbelow.trans hup)
  · exact hnot

theorem Beats.mono {proposed more : List Candidate} (h : Beats t config proposed k c) :
    Beats t config (proposed ++ more) k c :=
  ⟨h.conflict, h.side.imp_right fun hfirst => ⟨hfirst.1.trans (List.sublist_append_left ..), hfirst.2⟩⟩

/-- What holds while proposals are kept and dropped: those that are kept are proposals in
order, and every other one is beaten. -/
structure Settles (t : Tree) (config : NodeSet) (name : String) (offered : List Candidate)
    (kept : List (Candidate × NodeSet)) : Prop extends Kept t config name kept where
  offers : ∀ c ∈ offered, Proposed t config name c
  sublist : (kept.map Prod.fst).Sublist offered
  beaten : ∀ c ∈ offered, c ∈ kept.map Prod.fst ∨
    ∃ k ∈ kept.map Prod.fst, Beats t config offered k c

/-- What a proposal finds in its way: a kept one conflicts with it unless their exit sets are
disjoint. -/
theorem Kept.conflict {kept : List (Candidate × NodeSet)} (hk : Kept t config name kept)
    {k : Candidate × NodeSet} (hmem : k ∈ kept) {exits : NodeSet}
    (hexits : t.exitSet config d = .ok exits) (h : ¬ exits.disjoint k.2 = true) :
    Conflict t config d k.1 := by
  rw [SortedSet.disjoint_iff] at h
  push Not at h
  obtain ⟨i, hi, hik⟩ := h
  exact ⟨i, ⟨exits, hexits, hi⟩, ⟨k.2, hk.exits k hmem, hik⟩⟩

/-- A candidate that is beaten stays so when the one that beats it is dropped. -/
theorem Beats.pass (w : t.WellFormed) (hC : Coherent t config) {offered : List Candidate}
    (h : Beats t config offered k c) (hc : Proposed t config name c)
    (hd : Proposed t config name d) (hordered : Ordered t (offered ++ [d]))
    (hbelow : t.Below d.source k.source) (hconflict : Conflict t config d k) :
    Beats t config (offered ++ [d]) d c := by
  rcases h.side with hkc | ⟨hfirst, hnot⟩
  · obtain ⟨i, hi, -⟩ := hconflict
    obtain ⟨j, -, hj⟩ := h.conflict
    have hdc := hbelow.trans hkc
    exact ⟨conflict_of_within w hC hd hc hdc.within hi hj, Or.inl hdc⟩
  · have hthree : [k, c, d].Sublist (offered ++ [d]) := hfirst.append (List.Sublist.refl [d])
    exact absurd (hordered k c d hthree hbelow) hnot

/-- **One proposal more.** -/
theorem Settles.keep (w : t.WellFormed) (hC : Coherent t config) {offered : List Candidate}
    {kept kept' : List (Candidate × NodeSet)} (hs : Settles t config name offered kept)
    (hd : Proposed t config name d) (hordered : Ordered t (offered ++ [d]))
    (h : Selection.keep t config kept d = .ok kept') :
    Settles t config name (offered ++ [d]) kept' := by
  have hkept := hs.toKept.keep hd h
  have hoffers : ∀ c ∈ offered ++ [d], Proposed t config name c := by
    intro c hc
    rcases List.mem_append.mp hc with hc | hc
    · exact hs.offers c hc
    · rwa [List.mem_singleton.mp hc]
  unfold Selection.keep at h
  obtain ⟨exits, hexits, h⟩ := bind_eq_ok.mp h
  dsimp only at h
  split at h
  · rename_i hall
    cases h
    -- those that conflict stand above, and go
    have hgone : ∀ k ∈ kept, ¬ exits.disjoint k.2 = true → t.Below d.source k.1.source := by
      intro k hk hnot
      refine isDescendant_iff.mp (List.all_eq_true.mp hall k (List.mem_filter.mpr ⟨hk, ?_⟩))
      rw [Bool.not_eq_true', Bool.eq_false_iff]
      exact hnot
    have hstays : ∀ k ∈ kept, exits.disjoint k.2 = true →
        k.1 ∈ ((kept.filter fun k => exits.disjoint k.2) ++ [(d, exits)]).map Prod.fst := by
      intro k hk hdisjoint
      rw [List.map_append]
      exact List.mem_append_left _ (List.mem_map_of_mem (List.mem_filter.mpr ⟨hk, hdisjoint⟩))
    have hnew : d ∈ ((kept.filter fun k => exits.disjoint k.2) ++ [(d, exits)]).map Prod.fst := by
      rw [List.map_append]
      exact List.mem_append_right _ (List.mem_singleton.mpr rfl)
    refine ⟨hkept, hoffers, ?_, fun c hc => ?_⟩
    · rw [List.map_append]
      exact ((List.filter_sublist.map _).trans hs.sublist).append (List.Sublist.refl _)
    rcases List.mem_append.mp hc with hc | hc
    · rcases hs.beaten c hc with hin | ⟨k, hin, hbeats⟩
      · obtain ⟨k, hk, rfl⟩ := List.mem_map.mp hin
        by_cases hdisjoint : exits.disjoint k.2 = true
        · exact Or.inl (hstays k hk hdisjoint)
        · exact Or.inr ⟨d, hnew, hs.toKept.conflict hk hexits hdisjoint,
            Or.inl (hgone k hk hdisjoint)⟩
      · obtain ⟨k, hk, rfl⟩ := List.mem_map.mp hin
        by_cases hdisjoint : exits.disjoint k.2 = true
        · exact Or.inr ⟨k.1, hstays k hk hdisjoint, hbeats.mono⟩
        · exact Or.inr ⟨d, hnew, hbeats.pass w hC (hs.offers c hc) hd hordered
            (hgone k hk hdisjoint) (hs.toKept.conflict hk hexits hdisjoint)⟩
    · rw [List.mem_singleton.mp hc]
      exact Or.inl hnew
  · rename_i hnot
    cases h
    refine ⟨hkept, hoffers, hs.sublist.trans (List.sublist_append_left ..), fun c hc => ?_⟩
    rcases List.mem_append.mp hc with hc | hc
    · rcases hs.beaten c hc with hin | ⟨k, hk, hbeats⟩
      · exact Or.inl hin
      · exact Or.inr ⟨k, hk, hbeats.mono⟩
    · obtain rfl := List.mem_singleton.mp hc
      -- one that conflicts does not stand above the new one, and keeps it out
      rw [List.all_eq_true] at hnot
      push Not at hnot
      obtain ⟨k, hmem, hside⟩ := hnot
      obtain ⟨hk, hconflict⟩ := List.mem_filter.mp hmem
      rw [Bool.not_eq_true', Bool.eq_false_iff] at hconflict
      have hin : k.1 ∈ kept.map Prod.fst := List.mem_map_of_mem hk
      refine Or.inr ⟨k.1, hin, (hs.toKept.conflict hk hexits hconflict).symm, Or.inr ⟨?_, ?_⟩⟩
      · exact (List.singleton_sublist.mpr (hs.sublist.subset hin)).append (List.Sublist.refl _)
      · exact fun hbelow => hside (isDescendant_iff.mpr hbelow)

theorem Settles.keepAll (w : t.WellFormed) (hC : Coherent t config) {rest : List Candidate} :
    ∀ {offered : List Candidate} {kept kept' : List (Candidate × NodeSet)},
      Settles t config name offered kept → (∀ c ∈ rest, Proposed t config name c) →
      Ordered t (offered ++ rest) → rest.foldlM (Selection.keep t config) kept = .ok kept' →
      Settles t config name (offered ++ rest) kept' := by
  induction rest with
  | nil =>
      intro offered kept kept' hs _ _ h
      cases h
      rwa [List.append_nil]
  | cons d rest ih =>
      intro offered kept kept' hs hrest hordered h
      rw [List.foldlM_cons] at h
      obtain ⟨middle, hstep, h⟩ := bind_eq_ok.mp h
      rw [List.append_cons] at hordered ⊢
      have hfirst : Ordered t (offered ++ [d]) := fun k c e hsub =>
        hordered k c e (hsub.trans (List.sublist_append_left ..))
      exact ih (hs.keep w hC (hrest d (List.mem_cons_self ..)) hfirst hstep)
        (fun c hc => hrest c (List.mem_cons_of_mem _ hc)) hordered h

/-- Where no guard that is evaluated fails, every leaf is asked. -/
theorem exists_proposals
    (h : ∀ c, Evaluates t scope name config c → ∃ b, enabled scope c = .ok b) :
    ∃ proposed, proposals t scope name config = .ok proposed := by
  unfold proposals
  have hleaves : ∀ leaf ∈ config.toList.filter t.isLeaf, leaf ∈ config ∧ t.isLeaf leaf = true :=
    fun leaf => List.mem_filter.mp
  generalize config.toList.filter t.isLeaf = leaves at hleaves
  generalize ([] : List Candidate) = proposed
  induction leaves generalizing proposed with
  | nil => exact ⟨proposed, rfl⟩
  | cons leaf rest ih =>
      obtain ⟨hleaf, hisLeaf⟩ := hleaves leaf (List.mem_cons_self ..)
      obtain ⟨found, hfound⟩ := exists_firstEnabled fun c hc => h c ⟨leaf, hleaf, hisLeaf, hc⟩
      obtain ⟨next, hnext⟩ : ∃ next, propose t scope name proposed leaf = .ok next := by
        unfold propose
        rw [hfound]
        cases found with
        | none => exact ⟨_, rfl⟩
        | some c => exact ⟨_, rfl⟩
      obtain ⟨last, hlast⟩ := ih (fun leaf hleaf => hleaves leaf (List.mem_cons_of_mem _ hleaf)) next
      exact ⟨last, by rw [List.foldlM_cons]; exact bind_eq_ok.mpr ⟨next, hnext, hlast⟩⟩

/-- **What is selected is free of conflicts and as large as can be, and inner states win.**  In
a legal configuration, where no guard that is evaluated fails, an event selects candidates that
active leaves pick, none of them twice and no two that exit the same node.  A pick that is not
among them conflicts with one that is, and the source of that one is not above its own. -/
theorem select_maximal {root : String} {chart : StateConfig} (h : build root chart = .ok t)
    (hC : Legal t config)
    (hguards : ∀ c, Evaluates t scope name config c → ∃ b, enabled scope c = .ok b) :
    ∃ selected, select t scope name config = .ok selected ∧
      (∀ c ∈ selected, ∃ leaf ∈ config, t.isLeaf leaf = true ∧ Picks t scope name leaf c) ∧
      (selected.Pairwise fun a b => a.same b = false) ∧
      (∀ c ∈ selected, ∃ exits, t.exitSet config c = .ok exits) ∧
      (selected.Pairwise fun a b => ¬ Conflict t config a b) ∧
      ∀ leaf ∈ config, t.isLeaf leaf = true → ∀ c, Picks t scope name leaf c → c ∉ selected →
        ∃ k ∈ selected, Conflict t config k c ∧ ¬ t.Below c.source k.source := by
  have w : t.Lettered := lettered_of_build h
  have hcoherent := hC.toCoherent
  obtain ⟨proposed, hproposed⟩ := exists_proposals hguards
  obtain ⟨picks, htraced, rfl, hall⟩ := exists_traced w hproposed
  have hoffers := proposals_proposed hproposed
  obtain ⟨selected, hselected⟩ := exists_resolve w.toWellFormed hoffers
  have hselect : select t scope name config = .ok selected :=
    bind_eq_ok.mpr ⟨_, hproposed, hselected⟩
  obtain ⟨kept, hkept, hselected⟩ := bind_eq_ok.mp hselected
  cases hselected
  have hnone : Settles t config name [] [] :=
    ⟨⟨nofun, nofun, .nil⟩, nofun, List.nil_sublist _, nofun⟩
  have hsettles := hnone.keepAll w.toWellFormed hcoherent hoffers
    (htraced.ordered h hcoherent.inTree) hkept
  rw [List.nil_append] at hsettles
  refine ⟨_, hselect, fun c hc => ?_, ?_, fun c hc => ?_, ?_, fun leaf hleaf hisLeaf c hc hnot => ?_⟩
  · obtain ⟨p, hp, rfl⟩ := List.mem_map.mp (hsettles.sublist.subset hc)
    obtain ⟨hleaf, hisLeaf⟩ := htraced.active p hp
    exact ⟨p.1, hleaf, hisLeaf, htraced.picked p hp⟩
  · exact (List.pairwise_map.mpr htraced.apart).sublist hsettles.sublist
  · obtain ⟨k, hk, rfl⟩ := List.mem_map.mp hc
    exact ⟨k.2, hsettles.exits k hk⟩
  · refine List.pairwise_map.mpr (hsettles.disjoint.imp_of_mem ?_)
    rintro a b ha hb hdisjoint ⟨i, ⟨x, hx, hix⟩, y, hy, hiy⟩
    obtain rfl := Except.ok.inj (hx.symm.trans (hsettles.exits a ha))
    obtain rfl := Except.ok.inj (hy.symm.trans (hsettles.exits b hb))
    exact hdisjoint i hix hiy
  · rcases hsettles.beaten c (hall leaf hleaf hisLeaf c hc) with hin | ⟨k, hk, hbeats⟩
    · exact absurd hin hnot
    · exact ⟨k, hk, hbeats.conflict, hbeats.not_below⟩

/-- Three regions that a transition of the root would leave, if the one in the middle did not
have its own. -/
def trioChart : StateConfig :=
  let go (target) := [("GO", [{ CandidateConfig.idle with target := some target }])]
  { StateConfig.blank with
    initial := some "p"
    on := go "z"
    states := [
      ("p", { StateConfig.blank with
        type := some .parallel
        states := [
          ("a", { StateConfig.blank with
            initial := some "x"
            states := [("x", StateConfig.blank)] }),
          ("b", { StateConfig.blank with
            initial := some "y"
            states := [("y", { StateConfig.blank with on := go "y2" }), ("y2", StateConfig.blank)] }),
          ("c", StateConfig.blank)] }),
      ("z", StateConfig.blank)] }

/-- The first leaf of the trio picks the transition of the root, which loses to that of the
region in the middle. -/
theorem select_maximal_trioChart : ∃ t config selected c k, Tree.build "m" trioChart = .ok t ∧
    Legal t config ∧
    select t ⟨SortedMap.empty, .null, Event.named "GO"⟩ "GO" config = .ok selected ∧
    Picks t ⟨SortedMap.empty, .null, Event.named "GO"⟩ "GO" 3 c ∧ c.source = Tree.root ∧
    c ∉ selected ∧ k ∈ selected ∧ k.source = 5 ∧ Conflict t config k c ∧
    ¬ t.Below c.source k.source := by
  obtain ⟨t, ht, hrun⟩ := exists_of_run (x := Tree.build "m" trioChart)
    (p := fun t => isLegal t (SortedSet.ofList [0, 1, 2, 3, 4, 5, 7]) &&
      (t.isLeaf 3 && t.allCandidates.all (fun c => c.guard.isNone)) &&
      (firstEnabled ⟨SortedMap.empty, .null, Event.named "GO"⟩
        (candidatesFrom t "GO" 3)).toOption.any (fun found =>
          found.any fun c => c.source == Tree.root) &&
      (select t ⟨SortedMap.empty, .null, Event.named "GO"⟩ "GO"
        (SortedSet.ofList [0, 1, 2, 3, 4, 5, 7])).toOption.any (fun selected =>
          selected.all fun c => c.source == 5)) (by decide +kernel)
  simp only [Bool.and_eq_true] at hrun
  obtain ⟨⟨⟨hlegal, hisLeaf, hbare⟩, hfirst⟩, hsources⟩ := hrun
  obtain ⟨found, hfound, hc⟩ := exists_of_run hfirst
  obtain ⟨c, rfl, hsource⟩ := (Option.any_eq_true _ _).mp hc
  obtain ⟨chosen, hchosen, hsources⟩ := exists_of_run hsources
  have hC := (isLegal_iff (wellFormed_of_build ht)).mp hlegal
  -- no candidate has a guard, so that none can fail
  have hguards : ∀ a, Evaluates t ⟨SortedMap.empty, .null, Event.named "GO"⟩ "GO"
      (SortedSet.ofList [0, 1, 2, 3, 4, 5, 7]) a →
      ∃ b, enabled ⟨SortedMap.empty, .null, Event.named "GO"⟩ a = .ok b := by
    rintro a ⟨leaf, -, -, hcomes⟩
    obtain ⟨n, -, ha⟩ := mem_candidatesFrom.mp hcomes.mem
    have hnone := List.all_eq_true.mp hbare a (mem_allCandidates ha).2
    refine ⟨true, ?_⟩
    rw [enabled, Option.isNone_iff_eq_none.mp hnone]
    rfl
  obtain ⟨selected, hselected, -, -, -, -, hrivals⟩ := select_maximal ht hC hguards
  obtain rfl := Except.ok.inj (hchosen.symm.trans hselected)
  have hpicks := picks_iff.mpr hfound
  have hmissing : c ∉ chosen := fun hin => by
    have hfive := List.all_eq_true.mp hsources c hin
    rw [beq_iff_eq.mp hsource] at hfive
    cases hfive
  obtain ⟨k, hk, hconflict, hside⟩ :=
    hrivals 3 (SortedSet.mem_ofList.mpr (by simp)) hisLeaf c hpicks hmissing
  exact ⟨t, _, chosen, c, k, ht, hC, hselected, hpicks, beq_iff_eq.mp hsource, hmissing, hk,
    beq_iff_eq.mp (List.all_eq_true.mp hsources k hk), hconflict, hside⟩

end Selection

end Statechart
