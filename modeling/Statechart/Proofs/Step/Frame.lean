/-
What a step leaves alone.

A step exits what is active below the domains and enters what is active below them
afterwards.  That is all: its actions and timer commands are those of the nodes that it
exits and enters, besides the actions of the transitions themselves, and every other node
is active as it was before.

On the way out this is how the exits are defined.  On the way in it is not: history nodes
are followed, default descents, and regions beside the way.  That none of it leaves the
domain is `Grown.within`, by way of `mem_after_elsewhere`; here the nodes are only sorted
into those inside and outside (`Inside`).
-/
import Statechart.Proofs.Step.Legality

namespace Statechart.Step

open Statechart.Tree Outcome Entry

variable {t : Tree} {s s' : Step} {i : Nat}

/-! ### The actions of a step -/

theorem foldl_exitNode_actions {l : List Nat} : ∀ {s : Step},
    (l.foldl (exitNode t) s).actions = s.actions ++ l.flatMap fun i => (t.node i).exit := by
  induction l with
  | nil => intro s; simp
  | cons a rest ih =>
      intro s
      rw [List.foldl_cons, ih, List.flatMap_cons, exitNode, List.append_assoc]

theorem foldl_enterNode_actions {l : List Nat} : ∀ {s : Step},
    (l.foldl (enterNode t) s).actions = s.actions ++ l.flatMap fun i => (t.node i).entry := by
  induction l with
  | nil => intro s; simp
  | cons a rest ih =>
      intro s
      rw [List.foldl_cons, ih, List.flatMap_cons, enterNode, List.append_assoc]

theorem completeParallel_actions (t : Tree) (s : Step) (i : Nat) :
    (completeParallel t s i).actions = s.actions := by
  unfold completeParallel
  split <;> rfl

theorem completeAbove_actions (t : Tree) (s : Step) (i : Nat) :
    (completeAbove t s i).actions = s.actions := by
  unfold completeAbove
  split
  · rfl
  · split
    · exact completeParallel_actions t s _
    · dsimp only
      split
      · rfl
      · split
        · exact completeParallel_actions t _ _
        · rfl

/-- Completions run no actions. -/
theorem foldl_completeAbove_actions {l : List Nat} : ∀ {s : Step},
    (l.foldl (completeAbove t) s).actions = s.actions := by
  induction l with
  | nil => exact rfl
  | cons a rest ih =>
      intro s
      rw [List.foldl_cons, ih, completeAbove_actions]

/-- **The actions of a step**: those of what is exited, those of the transitions, and those
of what is entered. -/
theorem actions_microstep {selected : List Candidate} {moves : List (Nat × Nat)}
    (hmoves : MovesOf t selected moves) (hstep : s.microstep t selected = .ok s') :
    s'.actions = s.actions ++
      ((Change.of t s.config s.history moves).exits.toList.reverse.flatMap fun i =>
        (t.node i).exit) ++
      selected.flatMap Candidate.actions ++
      (Change.of t s.config s.history moves).entered.toList.flatMap fun i =>
        (t.node i).entry := by
  obtain ⟨targets, htargets, rfl⟩ := hmoves
  obtain ⟨_, htargets', hstep⟩ := bind_eq_ok.mp hstep
  cases htargets.symm.trans htargets'
  cases hstep
  obtain ⟨hconfig, hhistory, _⟩ := exitAll_spec t s ((targets.filterMap id).foldl
    (fun acc m => acc.union (t.activeBelow s.config m.2)) SortedSet.empty)
  unfold Change.of
  dsimp only
  rw [← hconfig, ← hhistory, enterAll, foldl_completeAbove_actions, foldl_enterNode_actions,
    exitAll, foldl_exitNode_actions]

/-! ### Inside the domains -/

/-- A node lies below the domain of one of the candidates. -/
def Inside (t : Tree) (selected : List Candidate) (i : Nat) : Prop :=
  ∃ c ∈ selected, ∃ x D, Moves t c x D ∧ t.Below i D

theorem MovesOf.inside_iff {selected : List Candidate} {moves : List (Nat × Nat)}
    (h : MovesOf t selected moves) : Inside t selected i ↔ ∃ m ∈ moves, t.Below i m.2 := by
  constructor
  · rintro ⟨c, hc, x, D, hmove, hi⟩
    exact ⟨(x, D), h.mem_iff.mpr ⟨c, hc, hmove⟩, hi⟩
  · rintro ⟨m, hm, hi⟩
    obtain ⟨c, hc, hmove⟩ := h.mem_iff.mp hm
    exact ⟨c, hc, m.1, m.2, hmove, hi⟩

/-- What a step exits and enters, and that nothing else of the tree runs actions or reaches
the timers. -/
structure Exchanges (t : Tree) (s : Step) (selected : List Candidate) (s' : Step)
    (exited entered : NodeSet) : Prop where
  mem_exited : ∀ i, i ∈ exited ↔ i ∈ s.config ∧ Inside t selected i
  mem_entered : ∀ i, i ∈ entered ↔ i ∈ s'.config ∧ Inside t selected i
  actions : s'.actions = s.actions ++
    (exited.toList.reverse.flatMap fun i => (t.node i).exit) ++
    selected.flatMap Candidate.actions ++
    entered.toList.flatMap fun i => (t.node i).entry
  timers : s'.timers = s.timers ++
    (exited.toList.reverse.flatMap fun i => cancels (t.node i)) ++
    entered.toList.flatMap fun i => arms (t.node i)

/-- What is entered is active afterwards and below a domain, and was not kept. -/
theorem mem_entered_iff {config : NodeSet} {history : HistoryStore} {moves : List (Nat × Nat)}
    (w : t.WellFormed) {Q : NodeSet → Prop} (hmade : MadeFrom t Q history)
    (hfit : Fit t config moves) :
    i ∈ (Change.of t config history moves).entered ↔
      i ∈ (Change.of t config history moves).after ∧ ∃ m ∈ moves, t.Below i m.2 := by
  constructor
  · intro h
    refine ⟨SortedSet.mem_union.mpr (Or.inr h), ?_⟩
    obtain ⟨hnew, m, hm, hgrown⟩ := (mem_entered w hmade hfit).mp h
    rcases hgrown.within w (scattered_after w hmade hfit hm) with rfl | hb
    · exact absurd (hfit.domain_kept hm) hnew
    · exact ⟨m, hm, hb⟩
  · rintro ⟨h, m, hm, hb⟩
    refine (SortedSet.mem_union.mp h).resolve_left fun hkept => ?_
    exact (mem_kept.mp hkept).2 m hm hb

/-- A step leaves a node alone: it is active or not as before, and is neither exited nor
entered. -/
structure Spares (s s' : Step) (exited entered : NodeSet) (i : Nat) : Prop where
  active : i ∈ s'.config ↔ i ∈ s.config
  exited : i ∉ exited
  entered : i ∉ entered

/-- The search up from a node stops at or below what it looks for. -/
theorem exists_find?_ancestors {p : Nat → Bool} {r : Nat} (hp : p r = true) :
    t.Below i r → ∃ a, (t.ancestors i).find? p = some a ∧ t.Within a r := by
  induction i using Nat.strong_induction_on with
  | _ i ih =>
      intro h
      obtain ⟨q, hq, hqr⟩ := below_iff.mp h
      rw [ancestors_of_parent hq, List.find?_cons]
      cases hfound : p q with
      | true => exact ⟨q, rfl, hqr⟩
      | false =>
          refine ih q (lt_of_parent hq) (hqr.resolve_left ?_)
          rintro rfl
          rw [hp] at hfound
          cases hfound

/-- A transition within a compound node has its domain there. -/
theorem domain_within {c : Candidate} {x D r : Nat} (hmove : Moves t c x D)
    (hkind : t.kind r = .compound) (hsource : t.Below c.source r) (htarget : t.Below x r) :
    t.Within D r := by
  rw [hmove.domain]
  unfold domain
  extract_lets fromSource
  split
  · exact hsource.within
  · obtain ⟨a, hfind, har⟩ := exists_find?_ancestors
      (p := fun a => t.kind a == .compound && t.isDescendant x a)
      (by rw [hkind, isDescendant_iff.mpr htarget]; rfl) hsource
    rw [hfind]
    exact har

/-- What is inside one region is below no domain that lies in another. -/
theorem not_inside_of_sibling (w : t.WellFormed) {selected : List Candidate} {p r : Nat}
    (hr : r ∈ t.regions p)
    (hdomains : ∀ c ∈ selected, ∀ x D, Moves t c x D → ∃ b ∈ t.regions p, b ≠ r ∧ t.Within D b)
    (hi : t.Within i r) : ¬ Inside t selected i := by
  rintro ⟨c, hc, x, D, hmove, hbelow⟩
  obtain ⟨b, hb, hne, hD⟩ := hdomains c hc x D hmove
  -- otherwise the node would be inside both regions
  exact hne (eq_of_within_children (w.mem_regions.mp hb).1 (w.mem_regions.mp hr).1
    (hbelow.below hD).within hi)

/-! ### The frame -/

/-- **A step touches nothing outside its domains.**  It exits and enters only nodes below the
domains of the candidates that it takes, runs no other actions of nodes and sends no other
timer commands.  Every other node is as active as before, and a history node remembers
something else only if its parent was exited.  So what happens inside one region of a
parallel node leaves the other regions alone, and a transition within a compound node stays
there. -/
theorem microstep_frame {name : String} {chart : StateConfig} (h : Tree.build name chart = .ok t)
    {s : Step} {scope : GuardScope} {event : String} {selected : List Candidate}
    (hC : Legal t s.config) (hmade : MadeFrom t (fun _ => True) s.history)
    (hselect : Selection.select t scope event s.config = .ok selected) :
    ∃ s' exited entered, s.microstep t selected = .ok s' ∧
      Exchanges t s selected s' exited entered ∧
      (∀ i, ¬ Inside t selected i → Spares s s' exited entered i) ∧
      (∀ j, s'.history.get? j ≠ s.history.get? j → ∃ P ∈ exited, j ∈ t.historyChildren P) ∧
      (∀ p, ∀ r ∈ t.regions p,
        (∀ c ∈ selected, ∀ x D, Moves t c x D → ∃ b ∈ t.regions p, b ≠ r ∧ t.Within D b) →
        ∀ i, t.Within i r → Spares s s' exited entered i) ∧
      ∀ c ∈ selected, ∀ x D, Moves t c x D → ∀ r, t.kind r = .compound →
        t.Below c.source r → t.Below x r → t.Within D r := by
  have w := wellFormed_of_build h
  have hselected := Selection.selected_of_select w hC.toCoherent hselect
  obtain ⟨moves, hmoves⟩ := exists_movesOf w hselected.proposed
  have hfit := hmoves.fit w hC.toCoherent hselected
  obtain ⟨s', hs', hmakes⟩ := microstep_of_moves (s := s) hmoves
  have hoff : ∀ i, ¬ Inside t selected i → Spares s s'
      (Change.of t s.config s.history moves).exits (Change.of t s.config s.history moves).entered
      i := by
    intro i hi
    rw [hmoves.inside_iff] at hi
    refine ⟨?_, fun h => hi (mem_exits.mp h).2, fun h => hi ((mem_entered_iff w hmade hfit).mp h).2⟩
    rw [hmakes.config]
    exact mem_after_elsewhere w hmade hfit fun m hm hb => hi ⟨m, hm, hb⟩
  refine ⟨s', _, _, hs', ⟨fun i => ?_, fun i => ?_, actions_microstep hmoves hs', hmakes.timers⟩,
    hoff, fun j hj => ?_,
    fun p r hr hdomains i hi => hoff i (not_inside_of_sibling w hr hdomains hi),
    fun c _ x D hmove r hkind hsource hx => domain_within hmove hkind hsource hx⟩
  · rw [mem_exits, hmoves.inside_iff]
  · rw [mem_entered_iff w hmade hfit, hmoves.inside_iff, hmakes.config]
    rfl
  · by_contra hnone
    push Not at hnone
    refine hj ?_
    rw [hmakes.history]
    exact HistoryStore.get?_recordAll_of_not_mem fun P hP => hnone P (SortedSet.mem_toList.mp hP)

/-- Two regions side by side, one of which an event changes. -/
def twinChart : StateConfig :=
  { StateConfig.blank with
    type := some .parallel
    states := [
      ("a", { StateConfig.blank with
        initial := some "x"
        states := [
          ("x", { StateConfig.blank with
            on := [("GO", [{ CandidateConfig.idle with target := some "y", actions := ["go"] }])]
            exit := ["leave x"] }),
          ("y", { StateConfig.blank with entry := ["enter y"] })] }),
      ("b", { StateConfig.blank with
        initial := some "u"
        states := [
          ("u", { StateConfig.blank with
            after := [("1000", [{ CandidateConfig.idle with target := some "u" }])]
            entry := ["enter u"]
            exit := ["leave u"] }),
          ("h", { StateConfig.blank with history := some (.mode .shallow) })] })] }

/-- What the event selects when the twins start. -/
def twinSelection (t : Tree) : Except Error (List Candidate) :=
  Selection.select t ⟨SortedMap.empty, .null, Event.named "GO"⟩ "GO"
    (machineOf t).initialStep.config

/-- The event goes on in the first region, and leaves every node of the second alone. -/
theorem microstep_frame_twinChart : ∃ t selected s' exited entered,
    Tree.build "m" twinChart = .ok t ∧ twinSelection t = .ok selected ∧
    (machineOf t).initialStep.microstep t selected = .ok s' ∧
    s'.config.toList = [0, 1, 3, 4, 5] ∧
    s'.actions = (machineOf t).initialStep.actions ++ ["leave x", "go", "enter y"] ∧
    Exchanges t (machineOf t).initialStep selected s' exited entered ∧
    ∀ i, t.Within i 4 → Spares (machineOf t).initialStep s' exited entered i := by
  obtain ⟨t, ht, hrun⟩ := exists_of_run (x := Tree.build "m" twinChart)
    (p := fun t => decide (t.regions 0 = [1, 4]) && (twinSelection t).toOption.any fun selected =>
      selected.all (fun c => (targetAndDomain t c).toOption.any fun move =>
        move.all fun m => m.2 == 1) &&
      ((machineOf t).initialStep.microstep t selected).toOption.any fun s' : Step =>
        decide (s'.config.toList = [0, 1, 3, 4, 5] ∧
          s'.actions = (machineOf t).initialStep.actions ++ ["leave x", "go", "enter y"]))
    (by decide +kernel)
  have w := wellFormed_of_build ht
  obtain ⟨hregions, hrun⟩ := Bool.and_eq_true_iff.mp hrun
  have hregions : t.regions 0 = [1, 4] := of_decide_eq_true hregions
  obtain ⟨selected, hselected, hrun⟩ := exists_of_run hrun
  obtain ⟨hdomains, hstep⟩ := Bool.and_eq_true_iff.mp hrun
  obtain ⟨s', hs', hafter⟩ := exists_of_run hstep
  obtain ⟨hconfig, hactions⟩ := of_decide_eq_true hafter
  obtain ⟨s'', exited, entered, hs'', hexchanges, -, -, hregion, -⟩ :=
    microstep_frame ht (legal_initialStep (m := machineOf t) w)
      (by rw [history_initialStep]; exact .empty) hselected
  rw [hs'] at hs''
  cases hs''
  refine ⟨t, selected, s', exited, entered, ht, hselected, hs', hconfig, hactions, hexchanges,
    hregion 0 4 (by rw [hregions]; simp) fun c hc x D hmove => ⟨1, by rw [hregions]; simp, by decide, ?_⟩⟩
  have hD := List.all_eq_true.mp hdomains c hc
  rw [targetAndDomain_of_moves hmove] at hD
  exact Or.inl (beq_iff_eq.mp hD)

end Statechart.Step
