/-
A step keeps configurations in shape.

What is kept and what is entered fit together.  Below each domain nothing is kept and a
complete subtree is entered, with nothing from the other moves in it; everywhere else
what is kept has lost nothing.  So the configuration after a step is coherent when the
one before was, whatever the domains are.

It is legal when in addition no domain is a parallel node, or a parallel domain is the
target itself.  A parallel domain loses all its regions and is given back only those in
which something is entered, so that the condition cannot be left out.
-/
import Statechart.Proofs.Entry.Complete
import Statechart.Proofs.Step.Microstep
import Statechart.Machine

namespace Statechart.Step

open Statechart.Tree Outcome Entry

variable {t : Tree} {config : NodeSet} {history : HistoryStore} {moves : List (Nat × Nat)}
  {i : Nat}

/-! ### The sets of a change -/

theorem mem_exits : i ∈ (Change.of t config history moves).exits ↔
    i ∈ config ∧ ∃ m ∈ moves, t.Below i m.2 := by
  have hfold : ∀ acc : NodeSet,
      i ∈ moves.foldl (fun acc m => acc.union (t.activeBelow config m.2)) acc ↔
        i ∈ acc ∨ ∃ m ∈ moves, i ∈ config ∧ t.Below i m.2 := by
    induction moves with
    | nil => intro acc; simp
    | cons m rest ih =>
        intro acc
        rw [List.foldl_cons, ih, SortedSet.mem_union, mem_activeBelow]
        simp [or_assoc]
  have h := hfold SortedSet.empty
  rw [Change.of]
  dsimp only
  rw [h]
  constructor
  · rintro (h | ⟨m, hm, hi, hb⟩)
    · exact absurd h SortedSet.not_mem_empty
    · exact ⟨hi, m, hm, hb⟩
  · rintro ⟨hi, m, hm, hb⟩
    exact Or.inr ⟨m, hm, hi, hb⟩

theorem mem_kept : i ∈ (Change.of t config history moves).kept ↔
    i ∈ config ∧ ∀ m ∈ moves, ¬ t.Below i m.2 := by
  have h : i ∈ (Change.of t config history moves).exits ↔
      i ∈ config ∧ ∃ m ∈ moves, t.Below i m.2 := mem_exits
  rw [Change.of] at h ⊢
  dsimp only at h ⊢
  rw [SortedSet.mem_filter, decide_eq_true_eq, h]
  constructor
  · rintro ⟨hi, hnot⟩
    exact ⟨hi, fun m hm hb => hnot ⟨hi, m, hm, hb⟩⟩
  · rintro ⟨hi, hnot⟩
    exact ⟨hi, fun ⟨_, m, hm, hb⟩ => hnot m hm hb⟩

/-- The exits of a configuration record what it was. -/
theorem made_change {P : NodeSet → Prop} (hmade : MadeFrom t P history) (hP : P config) :
    MadeFrom t P (Change.of t config history moves).history :=
  hmade.recordAll hP _

/-- Whatever is recorded, it is recorded. -/
theorem recorded_change {Q : NodeSet → Prop} (hmade : MadeFrom t Q history) :
    MadeFrom t (fun _ => True) (Change.of t config history moves).history :=
  made_change (hmade.mono fun _ _ => trivial) trivial

/-- The history children of a node are the history nodes below it. -/
theorem mem_historyChildren (w : t.WellFormed) {j P : Nat} :
    j ∈ t.historyChildren P ↔ t.parent j = some P ∧ t.isHistory j = true := by
  rw [historyChildren, List.mem_filter, w.mem_children]

/-- What a history node remembers after the exits: the configuration, if its parent is exited. -/
theorem get?_change_history (w : t.WellFormed) {j P : Nat} {kind : HistoryKind}
    (hkind : t.kind j = .history kind) (hP : t.parent j = some P) :
    (Change.of t config history moves).history.get? j =
      if P ∈ (Change.of t config history moves).exits then
        some ⟨kind, HistoryStore.remembered t kind P config⟩
      else history.get? j := by
  have hchild : ∀ i, j ∈ t.historyChildren i ↔ i = P := fun i => by
    rw [mem_historyChildren w, hP, Option.some.injEq, eq_comm, and_iff_left]
    rw [isHistory, hkind]
    rfl
  exact HistoryStore.get?_recordAll hkind hchild

/-- The moves enter what grows from their seeds, each below its own domain. -/
theorem mem_foldl_transition (w : t.WellFormed) {kept : NodeSet} {history : HistoryStore}
    {Q : NodeSet → Prop} (hmade : MadeFrom t Q history) {moves : List (Nat × Nat)}
    (hunder : ∀ m ∈ moves, Under t m.1 m.2) (hinTree : ∀ m ∈ moves, m.1 < t.size)
    (hapart : moves.Pairwise fun m k => t.Apart m.2 k.2 ∧ t.Apart k.2 m.2)
    (hkept : ∀ m ∈ moves, ∀ j ∈ kept, ¬ t.Below j m.2) (hi : ∀ m ∈ moves, i ≠ m.2) :
    ∀ E : NodeSet, (∀ m ∈ moves, ∀ j ∈ E, ¬ t.Below j m.2) →
      (i ∈ moves.foldl (Entry.transition t history kept) E ↔
        i ∈ E ∨ ∃ m ∈ moves, Grown t m.2 (seeds t history m.1) i) := by
  induction moves with
  | nil => intro E _; simp
  | cons m rest ih =>
      intro E hE
      obtain ⟨hfirst, hrest⟩ := List.pairwise_cons.mp hapart
      have hself : m ∈ m :: rest := List.mem_cons_self ..
      have hL := seeds_scattered w (hinTree m hself) (hunder m hself) hmade
      have hmem : ∀ j, j ≠ m.2 → (j ∈ Entry.transition t history kept E m ↔
          j ∈ E ∨ Grown t m.2 (seeds t history m.1) j) := fun j hj =>
        mem_transition w (hunder m hself) (below_of_record w hmade) hL (hE m hself)
          (hkept m hself) hj
      have hE' : ∀ k ∈ rest, ∀ j ∈ Entry.transition t history kept E m, ¬ t.Below j k.2 := by
        intro k hk j hj
        by_cases hjD : j = m.2
        · exact (hfirst k hk).1 j (Or.inl hjD)
        · rcases (hmem j hjD).mp hj with hj | hj
          · exact hE k (List.mem_cons_of_mem _ hk) j hj
          · exact (hfirst k hk).1 j (hj.within w hL)
      rw [List.foldl_cons, ih (fun k hk => hunder k (List.mem_cons_of_mem _ hk))
        (fun k hk => hinTree k (List.mem_cons_of_mem _ hk)) hrest
        (fun k hk => hkept k (List.mem_cons_of_mem _ hk))
        (fun k hk => hi k (List.mem_cons_of_mem _ hk)) _ hE', hmem i (hi m hself), or_assoc]
      simp

namespace Fit

/-- A domain stays active: it lies below no other. -/
theorem domain_kept (hfit : Fit t config moves) {m : Nat × Nat} (hm : m ∈ moves) :
    m.2 ∈ (Change.of t config history moves).kept := by
  have hline : ∀ k ∈ moves, ¬ t.Below m.2 k.2 := by
    intro k hk hb
    by_cases hmk : m = k
    · rw [hmk] at hb
      exact not_below_self hb
    · have : Std.Symm fun m k : Nat × Nat => t.Apart m.2 k.2 ∧ t.Apart k.2 m.2 :=
        ⟨fun _ _ h => ⟨h.2, h.1⟩⟩
      exact (hfit.apart.forall hm hk hmk).1 m.2 within_self hb
  exact mem_kept.mpr ⟨hfit.domain m hm, hline⟩

/-- Two moves below whose domains one node lies are the same, or have the same domain. -/
theorem domain_unique (hfit : Fit t config moves) {m k : Nat × Nat} (hm : m ∈ moves)
    (hk : k ∈ moves) (him : t.Below i m.2) (hik : t.Below i k.2) : m = k := by
  by_contra hmk
  have : Std.Symm fun m k : Nat × Nat => t.Apart m.2 k.2 ∧ t.Apart k.2 m.2 :=
    ⟨fun _ _ h => ⟨h.2, h.1⟩⟩
  exact (hfit.apart.forall hm hk hmk).1 i him.within hik

end Fit

/-- **What a step enters.** -/
theorem mem_entered (w : t.WellFormed) {Q : NodeSet → Prop} (hmade : MadeFrom t Q history)
    (hfit : Fit t config moves) :
    i ∈ (Change.of t config history moves).entered ↔
      i ∉ (Change.of t config history moves).kept ∧ ∃ m ∈ moves,
        Grown t m.2 (seeds t (Change.of t config history moves).history m.1) i := by
  have hmade' : MadeFrom t (fun _ => True) (Change.of t config history moves).history :=
    recorded_change hmade
  have hkept : ∀ m ∈ moves, ∀ j ∈ (Change.of t config history moves).kept, ¬ t.Below j m.2 :=
    fun m hm j hj => (mem_kept.mp hj).2 m hm
  have hentered : i ∈ (Change.of t config history moves).entered ↔
      i ∈ moves.foldl (Entry.transition t (Change.of t config history moves).history
        (Change.of t config history moves).kept) SortedSet.empty ∧
      i ∉ (Change.of t config history moves).kept := by
    conv_lhs => rw [Change.of]
    dsimp only
    rw [SortedSet.mem_filter, decide_eq_true_eq]
    rfl
  rw [hentered, and_comm]
  refine and_congr_right fun hi => ?_
  have hne : ∀ m ∈ moves, i ≠ m.2 := by
    rintro m hm rfl
    exact hi (hfit.domain_kept hm)
  rw [mem_foldl_transition w hmade' hfit.under hfit.inTree hfit.apart hkept hne SortedSet.empty
    (fun _ _ j hj => absurd hj SortedSet.not_mem_empty)]
  constructor
  · rintro (h | h)
    · exact absurd h SortedSet.not_mem_empty
    · exact h
  · exact Or.inr

/-! ### The configuration after a step

A node below a domain is active afterwards when it has grown from the seeds of that
move, and any other node when it was active before.
-/

/-- The configuration that a change leads to. -/
def Change.after (d : Change) : NodeSet := d.kept.union d.entered

section

variable (w : t.WellFormed)

section

variable {Q : NodeSet → Prop} (hmade : MadeFrom t Q history) (hfit : Fit t config moves)

include w hmade hfit

theorem mem_after : i ∈ (Change.of t config history moves).after ↔
    i ∈ (Change.of t config history moves).kept ∨ ∃ m ∈ moves,
      Grown t m.2 (seeds t (Change.of t config history moves).history m.1) i := by
  rw [Change.after, SortedSet.mem_union, mem_entered w hmade hfit]
  constructor
  · rintro (h | ⟨_, h⟩)
    · exact Or.inl h
    · exact Or.inr h
  · rintro (h | h)
    · exact Or.inl h
    · by_cases hi : i ∈ (Change.of t config history moves).kept
      · exact Or.inl hi
      · exact Or.inr ⟨hi, h⟩

theorem scattered_after {m : Nat × Nat} (hm : m ∈ moves) :
    Scattered t m.2 (seeds t (Change.of t config history moves).history m.1) :=
  seeds_scattered w (hfit.inTree m hm) (hfit.under m hm) (recorded_change hmade)

theorem mem_after_below {m : Nat × Nat} (hm : m ∈ moves) (hb : t.Below i m.2) :
    i ∈ (Change.of t config history moves).after ↔
      Grown t m.2 (seeds t (Change.of t config history moves).history m.1) i := by
  rw [mem_after w hmade hfit]
  constructor
  · rintro (h | ⟨k, hk, h⟩)
    · exact absurd hb ((mem_kept.mp h).2 m hm)
    · rcases h.within w (scattered_after w hmade hfit hk) with rfl | hbk
      · have hkept : k.2 ∈ (Change.of t config history moves).kept := hfit.domain_kept hk
        exact absurd hb ((mem_kept.mp hkept).2 m hm)
      · rwa [hfit.domain_unique hm hk hb hbk]
  · exact fun h => Or.inr ⟨m, hm, h⟩

theorem mem_after_elsewhere (h : ∀ m ∈ moves, ¬ t.Below i m.2) :
    i ∈ (Change.of t config history moves).after ↔ i ∈ config := by
  rw [mem_after w hmade hfit]
  constructor
  · rintro (hi | ⟨k, hk, hi⟩)
    · exact (mem_kept.mp hi).1
    · rcases hi.within w (scattered_after w hmade hfit hk) with rfl | hb
      · exact hfit.domain k hk
      · exact absurd hb (h k hk)
  · exact fun hi => Or.inl (mem_kept.mpr ⟨hi, h⟩)

/-- What is active afterwards has grown below a domain or was active before. -/
theorem after_cases (hi : i ∈ (Change.of t config history moves).after) :
    (∃ m ∈ moves, t.Below i m.2 ∧
      Grown t m.2 (seeds t (Change.of t config history moves).history m.1) i) ∨
    ((∀ m ∈ moves, ¬ t.Below i m.2) ∧ i ∈ config) := by
  by_cases h : ∃ m ∈ moves, t.Below i m.2
  · obtain ⟨m, hm, hb⟩ := h
    exact Or.inl ⟨m, hm, hb, (mem_after_below w hmade hfit hm hb).mp hi⟩
  · push Not at h
    exact Or.inr ⟨h, (mem_after_elsewhere w hmade hfit h).mp hi⟩

end

variable (hmade : MadeFrom t (Coherent t) history) (hC : Coherent t config)
  (hfit : Fit t config moves)

include w hmade hC hfit

theorem seeds_after {m : Nat × Nat} (hm : m ∈ moves) :
    Seeds t m.2 (seeds t (Change.of t config history moves).history m.1) :=
  seeds_good w (hfit.inTree m hm) (hfit.under m hm) (made_change hmade hC)

/-- Below an active compound node one child is active: it has grown with its parent, or it
was active before. -/
theorem existsUnique_child_after (hi : i ∈ (Change.of t config history moves).after)
    (hkind : t.kind i = .compound) :
    ∃! c, c ∈ t.regions i ∧ c ∈ (Change.of t config history moves).after := by
  by_cases h : ∃ m ∈ moves, t.Within i m.2
  · obtain ⟨m, hm, hw⟩ := h
    have hL := seeds_after w hmade hC hfit hm
    have hchild : ∀ c, c ∈ t.regions i → (c ∈ (Change.of t config history moves).after ↔
        Grown t m.2 (seeds t (Change.of t config history moves).history m.1) c) := fun c hc =>
      mem_after_below w hmade hfit hm ((below_of_parent (w.mem_regions.mp hc).1).below hw)
    have hunique : ∃! c, c ∈ t.regions i ∧
        Grown t m.2 (seeds t (Change.of t config history moves).history m.1) c := by
      rcases hw with rfl | hb
      · exact existsUnique_child_of_domain w hL hkind
      · exact ((mem_after_below w hmade hfit hm hb).mp hi).existsUnique_child w hL hkind
    exact (existsUnique_congr fun c => and_congr_right fun hc => hchild c hc).mpr hunique
  · push Not at h
    have hiC : i ∈ config :=
      (mem_after_elsewhere w hmade hfit fun m hm hb => h m hm hb.within).mp hi
    have hchild : ∀ c, c ∈ t.regions i →
        (c ∈ (Change.of t config history moves).after ↔ c ∈ config) := by
      intro c hc
      refine mem_after_elsewhere w hmade hfit fun m hm hb => h m hm ?_
      exact (below_iff_of_parent (w.mem_regions.mp hc).1).mp hb
    exact (existsUnique_congr fun c => and_congr_right fun hc => hchild c hc).mpr
      (hC.child i hiC hkind)

/-- A step leaves a coherent configuration coherent. -/
theorem coherent_after : Coherent t (Change.of t config history moves).after where
  root := (mem_after_elsewhere w hmade hfit fun _ _ =>
    not_below_of_no_parent w.root_parent).mpr hC.root
  inTree i hi := by
    rcases after_cases w hmade hfit hi with ⟨m, hm, _, hgrown⟩ | ⟨_, hiC⟩
    · exact (hgrown.active w (scattered_after w hmade hfit hm)).1
    · exact hC.inTree i hiC
  parent i hi p hp := by
    rcases after_cases w hmade hfit hi with ⟨m, hm, hb, hgrown⟩ | ⟨hnone, hiC⟩
    · rcases hgrown.parent w hb hp with rfl | hgrown
      · exact (mem_after w hmade hfit).mpr (Or.inl (hfit.domain_kept hm))
      · exact (mem_after w hmade hfit).mpr (Or.inr ⟨m, hm, hgrown⟩)
    · have hp' : ∀ m ∈ moves, ¬ t.Below p m.2 := fun m hm hb =>
        hnone m hm ((below_of_parent hp).trans hb)
      exact (mem_after_elsewhere w hmade hfit hp').mpr (hC.parent i hiC p hp)
  history i hi := by
    rcases after_cases w hmade hfit hi with ⟨m, hm, _, hgrown⟩ | ⟨_, hiC⟩
    · exact (hgrown.active w (scattered_after w hmade hfit hm)).2
    · exact hC.history i hiC
  child _ hi hkind := existsUnique_child_after w hmade hC hfit hi hkind

/-- A step leaves a legal configuration legal, if every parallel domain is among the seeds
of its own move. -/
theorem legal_after (hregions : ∀ i ∈ config, t.kind i = .parallel → ∀ c ∈ t.regions i, c ∈ config)
    (hdomain : ∀ m ∈ moves, t.kind m.2 = .parallel →
      m.2 ∈ seeds t (Change.of t config history moves).history m.1) :
    Legal t (Change.of t config history moves).after := by
  refine ⟨coherent_after w hmade hC hfit, fun i hi hkind c hc => ?_⟩
  have hparent := (w.mem_regions.mp hc).1
  by_cases h : ∃ m ∈ moves, t.Within i m.2
  · obtain ⟨m, hm, hw⟩ := h
    rw [mem_after_below w hmade hfit hm ((below_of_parent hparent).below hw)]
    rcases hw with rfl | hb
    · have hgrown : Grown t m.2 (seeds t (Change.of t config history moves).history m.1) m.2 :=
        Or.inl ⟨m.2, hdomain m hm hkind, .refl⟩
      exact hgrown.regions hkind hc hparent
    · exact ((mem_after_below w hmade hfit hm hb).mp hi).regions hkind hc hparent
  · push Not at h
    have hiC : i ∈ config :=
      (mem_after_elsewhere w hmade hfit fun m hm hb => h m hm hb.within).mp hi
    refine (mem_after_elsewhere w hmade hfit fun m hm hb => h m hm ?_).mpr
      (hregions i hiC hkind c hc)
    exact (below_iff_of_parent hparent).mp hb

end

/-! ### The start -/

/-- A set that grows from the root as a seed is a legal configuration. -/
theorem legal_of_root (w : t.WellFormed) (h : ∀ i, i ∈ config ↔ Grown t Tree.root [Tree.root] i) :
    Legal t config := by
  have hL : Seeds t Tree.root [Tree.root] := seeds_single within_self t.root_lt_size w.root_kind
  have hroot : Grown t Tree.root [Tree.root] Tree.root :=
    Or.inl ⟨Tree.root, List.mem_singleton.mpr rfl, .refl⟩
  refine ⟨⟨(h _).mpr hroot, fun i hi => (((h i).mp hi).active w hL.toScattered).1, ?_,
    fun i hi => (((h i).mp hi).active w hL.toScattered).2, ?_⟩, ?_⟩
  · intro i hi p hp
    have hb : t.Below i Tree.root :=
      (below_of_parent hp).below (w.within_root (Nat.lt_trans (lt_of_parent hp)
        (lt_size_of_parent hp)))
    rcases ((h i).mp hi).parent w hb hp with rfl | hgrown
    · exact (h _).mpr hroot
    · exact (h p).mpr hgrown
  · intro i hi hkind
    exact (existsUnique_congr fun c => and_congr_right fun _ => h c).mpr
      (((h i).mp hi).existsUnique_child w hL hkind)
  · intro i hi hkind c hc
    exact (h c).mpr (((h i).mp hi).regions hkind hc (w.mem_regions.mp hc).1)

/-- The change that enters the root with its default descent. -/
def firstChange (t : Tree) : Change where
  exits := SortedSet.empty
  kept := SortedSet.empty
  history := SortedMap.empty
  entered := Entry.withDefaults t SortedSet.empty Tree.root

theorem makes_initialStep {m : Machine} : Makes m.tree
    (Step.start SortedSet.empty SortedMap.empty) (firstChange m.tree) m.initialStep := by
  obtain ⟨hconfig, hhistory, htimers⟩ := enterAll_spec m.tree
    (Step.start SortedSet.empty SortedMap.empty)
    (Entry.withDefaults m.tree SortedSet.empty Tree.root)
  have hentered : (Entry.withDefaults m.tree SortedSet.empty Tree.root).filter
      (fun i => decide (i ∉ (Step.start SortedSet.empty SortedMap.empty).config)) =
        Entry.withDefaults m.tree SortedSet.empty Tree.root := by
    refine SortedSet.ext fun i => ?_
    rw [SortedSet.mem_filter, decide_eq_true_eq]
    exact and_iff_left SortedSet.not_mem_empty
  rw [hentered] at hconfig htimers
  exact ⟨hconfig, hhistory, htimers⟩

/-- The root and its descent are a legal configuration. -/
theorem legal_initialStep {m : Machine} (w : m.tree.WellFormed) :
    Legal m.tree m.initialStep.config := by
  refine legal_of_root w fun i => ?_
  rw [makes_initialStep.config, SortedSet.mem_union, firstChange,
    mem_withDefaults w (fun j hj => absurd hj SortedSet.not_mem_empty)]
  constructor
  · rintro (h | h | h)
    · exact absurd h SortedSet.not_mem_empty
    · exact absurd h SortedSet.not_mem_empty
    · exact Or.inl ⟨Tree.root, List.mem_singleton.mpr rfl, h⟩
  · rintro (⟨n, hn, h⟩ | ⟨n, hn, hb, _⟩ | ⟨_, _, ⟨n, hn, hb, _⟩, _⟩)
    · rw [List.mem_singleton.mp hn] at h
      exact Or.inr (Or.inr h)
    · rw [List.mem_singleton.mp hn] at hb
      exact absurd hb (not_below_of_no_parent w.root_parent)
    · rw [List.mem_singleton.mp hn] at hb
      exact absurd hb (not_below_of_no_parent w.root_parent)

/-- Nothing has been recorded at the start. -/
theorem history_initialStep (m : Machine) : m.initialStep.history = SortedMap.empty :=
  makes_initialStep.history

/-! ### Steps that an event takes -/

/-- What is selected in a coherent configuration makes a change that keeps it coherent. -/
theorem exists_microstep (w : t.WellFormed) {s : Step} {name : String} {selected : List Candidate}
    (hC : Coherent t s.config) (hmade : MadeFrom t (Coherent t) s.history)
    (h : Selection.Selected t s.config name selected) :
    ∃ moves s', MovesOf t selected moves ∧ Fit t s.config moves ∧
      s.microstep t selected = .ok s' ∧ Makes t s (Change.of t s.config s.history moves) s' ∧
      Coherent t s'.config := by
  obtain ⟨moves, hmoves⟩ := exists_movesOf w h.proposed
  have hfit := hmoves.fit w hC h
  obtain ⟨s', hs', hmakes⟩ := microstep_of_moves (s := s) hmoves
  refine ⟨moves, s', hmoves, hfit, hs', hmakes, ?_⟩
  rw [hmakes.config]
  exact coherent_after w hmade hC hfit

/-- **Steps keep configurations legal**, when the domain of every candidate with a target is
a compound node; and the start is legal. -/
theorem legal_steps {name : String} {c : StateConfig} {t : Tree} (h : Tree.build name c = .ok t) :
    (∀ (s : Step) (scope : GuardScope) (event : String) (selected : List Candidate),
      Legal t s.config → MadeFrom t (Legal t) s.history →
      Selection.select t scope event s.config = .ok selected →
      (∀ c ∈ selected, ∀ x D, Moves t c x D → t.kind D = .compound) →
      ∃ s', s.microstep t selected = .ok s' ∧ Legal t s'.config) ∧
    ∀ m : Machine, m.tree = t → Legal t m.initialStep.config := by
  have w := wellFormed_of_build h
  refine ⟨?_, ?_⟩
  · intro s scope event selected hC hmade hselect hdomain
    have hmade' := hmade.mono fun _ h => h.toCoherent
    obtain ⟨moves, s', hmoves, hfit, hs', hmakes, _⟩ := exists_microstep w hC.toCoherent hmade'
      (Selection.selected_of_select w hC.toCoherent hselect)
    refine ⟨s', hs', ?_⟩
    rw [hmakes.config]
    refine legal_after w hmade' hC.toCoherent hfit hC.regions fun m hm hparallel => ?_
    obtain ⟨b, hb, hmove⟩ := hmoves.exists_candidate hm
    rw [hdomain b hb _ _ hmove] at hparallel
    cases hparallel
  · rintro m rfl
    exact legal_initialStep w

/-- A machine that leaves its first state for a history node in a parallel one. -/
def workshop : StateConfig :=
  { StateConfig.blank with
    initial := some "idle"
    states := [
      ("idle", { StateConfig.blank with
        on := [("GO", [{ CandidateConfig.idle with target := some "work.h" }])] }),
      ("work", { StateConfig.blank with
        type := some .parallel
        states := [
          ("a", { StateConfig.blank with
            initial := some "x"
            states := [("x", StateConfig.blank), ("y", StateConfig.blank)] }),
          ("b", StateConfig.blank),
          ("h", { StateConfig.blank with history := some (.mode .deep) })] })] }

/-- The machine of a tree, without conditions. -/
def machineOf (t : Tree) : Machine :=
  ⟨⟨"m", t, .null, .null, ""⟩, SortedMap.empty, Machine.defaultLimit⟩

/-- What the event of the workshop selects when it starts. -/
def workshopSelection (t : Tree) : Except Error (List Candidate) :=
  Selection.select t ⟨SortedMap.empty, .null, Event.named "GO"⟩ "GO"
    (machineOf t).initialStep.config

/-- The first event of the workshop enters both its regions. -/
theorem legal_steps_workshop : ∃ t selected s', Tree.build "m" workshop = .ok t ∧
    workshopSelection t = .ok selected ∧ selected.length = 1 ∧
    (machineOf t).initialStep.microstep t selected = .ok s' ∧ Legal t s'.config ∧
    s'.config.toList = [0, 2, 3, 4, 6] := by
  obtain ⟨t, ht, hrun⟩ := exists_of_run (x := Tree.build "m" workshop)
    (p := fun t => (workshopSelection t).toOption.any fun selected =>
      selected.length == 1 &&
      selected.all (fun c => (targetAndDomain t c).toOption.any fun move =>
        move.all fun m => t.kind m.2 == .compound) &&
      ((machineOf t).initialStep.microstep t selected).toOption.any fun s' =>
        s'.config.toList == [0, 2, 3, 4, 6]) (by decide +kernel)
  obtain ⟨selected, hselected, hrun⟩ := exists_of_run hrun
  rw [Bool.and_eq_true, Bool.and_eq_true, beq_iff_eq, List.all_eq_true] at hrun
  obtain ⟨⟨hlength, hdomain⟩, hstep⟩ := hrun
  obtain ⟨s', hs', hconfig⟩ := exists_of_run hstep
  obtain ⟨hsteps, hstart⟩ := legal_steps ht
  obtain ⟨s'', hs'', hlegal⟩ := hsteps (machineOf t).initialStep _ "GO" selected
    (hstart (machineOf t) rfl) (by rw [history_initialStep]; exact .empty) hselected (by
      intro c hc x D hmove
      obtain ⟨label, hlabel, hx⟩ := hmove.target
      have hmove' : targetAndDomain t c = .ok (some (x, D)) := by
        rw [targetAndDomain, hlabel, hmove.domain]
        exact bind_eq_ok.mpr ⟨x, hx, rfl⟩
      have hkind := hdomain c hc
      rw [hmove'] at hkind
      exact beq_iff_eq.mp hkind)
  rw [hs'] at hs''
  cases hs''
  exact ⟨t, selected, s', ht, hselected, hlength, hs', hlegal, by simpa using hconfig⟩

end Statechart.Step
