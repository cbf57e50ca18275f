/-
What one step changes.

A step exits what is active below the domains, enters what its targets grow into, and
leaves the rest alone.  `Change` collects the four sets and stores that say how, and
`microstep_eq_ok` is the one place where the code of a step is opened: everything else
that a step does besides (running actions, raising completion events) is let go there.

For candidates that were selected in a coherent configuration the step cannot fail, and
the sets of its change have a description by membership (`mem_exits`, `mem_kept`,
`mem_entered`).  The description of what is entered goes over the moves one by one; a
move finds nothing below its own domain that an earlier one has entered, because the
domains are apart.
-/
import Statechart.Proofs.Entry.Target
import Statechart.Proofs.Step.Selection
import Statechart.Step.Microstep

namespace Statechart.Step

open Statechart.Tree Outcome Entry

variable {t : Tree} {s s' : Step} {i : Nat}

/-! ### Exits and entries, node by node -/

theorem mem_foldl_exitNode {l : List Nat} :
    ∀ {s : Step}, i ∈ (l.foldl (exitNode t) s).config ↔ i ∈ s.config ∧ i ∉ l := by
  induction l with
  | nil => intro s; simp
  | cons a rest ih =>
      intro s
      rw [List.foldl_cons, ih, exitNode, SortedSet.mem_erase, List.mem_cons, not_or, and_assoc]

/-- Exits cancel the timers of the nodes and change nothing else but actions. -/
theorem foldl_exitNode_frame {l : List Nat} :
    ∀ {s : Step}, (l.foldl (exitNode t) s).history = s.history ∧
      (l.foldl (exitNode t) s).timers = s.timers ++ l.flatMap fun i => cancels (t.node i) := by
  induction l with
  | nil => intro s; simp
  | cons a rest ih =>
      intro s
      obtain ⟨hhistory, htimers⟩ := ih (s := exitNode t s a)
      rw [List.foldl_cons, hhistory, htimers, List.flatMap_cons]
      exact ⟨rfl, by rw [exitNode, List.append_assoc]⟩

theorem mem_foldl_enterNode {l : List Nat} :
    ∀ {s : Step}, i ∈ (l.foldl (enterNode t) s).config ↔ i ∈ s.config ∨ i ∈ l := by
  induction l with
  | nil => intro s; simp
  | cons a rest ih =>
      intro s
      rw [List.foldl_cons, ih, enterNode, SortedSet.mem_insert, List.mem_cons]
      constructor
      · rintro ((h | h) | h)
        · exact Or.inr (Or.inl h)
        · exact Or.inl h
        · exact Or.inr (Or.inr h)
      · rintro (h | h | h)
        · exact Or.inl (Or.inr h)
        · exact Or.inl (Or.inl h)
        · exact Or.inr h

theorem foldl_enterNode_frame {l : List Nat} :
    ∀ {s : Step}, (l.foldl (enterNode t) s).history = s.history ∧
      (l.foldl (enterNode t) s).timers = s.timers ++ l.flatMap fun i => arms (t.node i) := by
  induction l with
  | nil => intro s; simp
  | cons a rest ih =>
      intro s
      obtain ⟨hhistory, htimers⟩ := ih (s := enterNode t s a)
      rw [List.foldl_cons, hhistory, htimers, List.flatMap_cons]
      exact ⟨rfl, by rw [enterNode, List.append_assoc]⟩

/-! ### Completions -/

/-- Two steps that differ at most in the events raised and in whether they are done. -/
structure SameButRaised (s s' : Step) : Prop where
  config : s'.config = s.config
  history : s'.history = s.history
  timers : s'.timers = s.timers

theorem SameButRaised.refl (s : Step) : SameButRaised s s := ⟨rfl, rfl, rfl⟩

theorem SameButRaised.trans {s₁ s₂ s₃ : Step} (h : SameButRaised s₁ s₂)
    (h' : SameButRaised s₂ s₃) : SameButRaised s₁ s₃ :=
  ⟨h'.config.trans h.config, h'.history.trans h.history, h'.timers.trans h.timers⟩

theorem complete_same (t : Tree) (s : Step) (i : Nat) : SameButRaised s (complete t s i) :=
  ⟨rfl, rfl, rfl⟩

theorem completeParallel_same (t : Tree) (s : Step) (i : Nat) :
    SameButRaised s (completeParallel t s i) := by
  unfold completeParallel
  split
  · exact complete_same t s i
  · exact .refl s

theorem completeAbove_same (t : Tree) (s : Step) (i : Nat) :
    SameButRaised s (completeAbove t s i) := by
  unfold completeAbove
  split
  · exact .refl s
  · split
    · exact completeParallel_same t s _
    · dsimp only
      split
      · exact complete_same t s _
      · split
        · exact (complete_same t s _).trans (completeParallel_same t _ _)
        · exact complete_same t s _

theorem foldl_completeAbove_same (t : Tree) (l : List Nat) :
    ∀ s : Step, SameButRaised s (l.foldl (completeAbove t) s) := by
  induction l with
  | nil => exact .refl
  | cons a rest ih => intro s; exact (completeAbove_same t s a).trans (ih _)

/-! ### The moves of a selection -/

theorem targetAndDomain_eq_ok {c : Candidate} {move : Option (Nat × Nat)}
    (h : targetAndDomain t c = .ok move) {m : Nat × Nat} (hm : move = some m) :
    Moves t c m.1 m.2 := by
  unfold targetAndDomain at h
  split at h
  · cases h
    cases hm
  · rename_i label hlabel
    obtain ⟨x, hx, h⟩ := bind_eq_ok.mp h
    cases h
    cases hm
    exact ⟨⟨label, hlabel, hx⟩, rfl⟩

theorem targetAndDomain_of_moves {c : Candidate} {x D : Nat} (h : Moves t c x D) :
    targetAndDomain t c = .ok (some (x, D)) := by
  obtain ⟨⟨label, hlabel, hx⟩, hdomain⟩ := h
  rw [targetAndDomain, hlabel, hdomain]
  exact bind_eq_ok.mpr ⟨x, hx, rfl⟩

/-- The targets of selected candidates with their domains. -/
def MovesOf (t : Tree) (selected : List Candidate) (moves : List (Nat × Nat)) : Prop :=
  ∃ targets, selected.mapM (targetAndDomain t) = .ok targets ∧ moves = targets.filterMap id

theorem MovesOf.exists_candidate {selected : List Candidate} {moves : List (Nat × Nat)}
    (h : MovesOf t selected moves) {m : Nat × Nat} (hm : m ∈ moves) :
    ∃ c ∈ selected, Moves t c m.1 m.2 := by
  obtain ⟨targets, htargets, rfl⟩ := h
  obtain ⟨move, hmove, hsome⟩ := List.mem_filterMap.mp hm
  obtain ⟨c, hc, hfound⟩ := (mem_mapM htargets).mp hmove
  exact ⟨c, hc, targetAndDomain_eq_ok hfound hsome⟩

/-- A candidate that moves is among the moves of a selection that takes it. -/
theorem MovesOf.mem_iff {selected : List Candidate} {moves : List (Nat × Nat)}
    (h : MovesOf t selected moves) {m : Nat × Nat} :
    m ∈ moves ↔ ∃ c ∈ selected, Moves t c m.1 m.2 := by
  refine ⟨h.exists_candidate, ?_⟩
  rintro ⟨c, hc, hmove⟩
  obtain ⟨targets, htargets, rfl⟩ := h
  exact List.mem_filterMap.mpr
    ⟨some m, (mem_mapM htargets).mpr ⟨c, hc, targetAndDomain_of_moves hmove⟩, rfl⟩

theorem MovesOf.pairwise {selected : List Candidate} {moves : List (Nat × Nat)}
    {R : Nat × Nat → Nat × Nat → Prop} (h : MovesOf t selected moves)
    (hR : selected.Pairwise fun a b => ∀ m k : Nat × Nat, Moves t a m.1 m.2 →
      Moves t b k.1 k.2 → R m k) : moves.Pairwise R := by
  obtain ⟨targets, htargets, rfl⟩ := h
  have hall := mapM_eq_ok.mp htargets
  clear htargets
  induction hall with
  | nil => exact List.Pairwise.nil
  | @cons c o selected targets hc hrest ih =>
      obtain ⟨hfirst, hR⟩ := List.pairwise_cons.mp hR
      cases o with
      | none => exact ih hR
      | some m =>
          rw [List.filterMap_cons_some (f := id) (b := m) rfl]
          refine List.pairwise_cons.mpr ⟨fun k hk => ?_, ih hR⟩
          obtain ⟨b, hb, hk⟩ :=
            MovesOf.exists_candidate ⟨targets, mapM_eq_ok.mpr hrest, rfl⟩ hk
          exact hfirst b hb m k (targetAndDomain_eq_ok hc rfl) hk

/-- What the moves of a selection have to be like for a configuration. -/
structure Fit (t : Tree) (config : NodeSet) (moves : List (Nat × Nat)) : Prop where
  /-- The domains are active. -/
  domain : ∀ m ∈ moves, m.2 ∈ config
  /-- The targets are under the domains. -/
  under : ∀ m ∈ moves, Under t m.1 m.2
  /-- The targets are nodes of the tree. -/
  inTree : ∀ m ∈ moves, m.1 < t.size
  /-- No two domains are in one line. -/
  apart : moves.Pairwise fun m k => t.Apart m.2 k.2 ∧ t.Apart k.2 m.2

theorem MovesOf.fit (w : t.WellFormed) {config : NodeSet} (hC : Coherent t config)
    {name : String} {selected : List Candidate}
    (hselected : Selection.Selected t config name selected) {moves : List (Nat × Nat)}
    (h : MovesOf t selected moves) : Fit t config moves where
  domain m hm := by
    obtain ⟨c, hc, hmove⟩ := h.exists_candidate hm
    exact hmove.domain_mem w hC (hselected.proposed c hc)
  under m hm := by
    obtain ⟨c, hc, hmove⟩ := h.exists_candidate hm
    exact hmove.under w hC (hselected.proposed c hc)
  inTree m hm := by
    obtain ⟨c, hc, hmove⟩ := h.exists_candidate hm
    exact hmove.inTree w hC (hselected.proposed c hc)
  apart := h.pairwise (hselected.apart.imp fun hR (m k : Nat × Nat) hm hk =>
    hR m.1 k.1 m.2 k.2 hm hk)

theorem exists_movesOf (w : t.WellFormed) {config : NodeSet} {name : String}
    {selected : List Candidate} (h : ∀ c ∈ selected, Proposed t config name c) :
    ∃ moves, MovesOf t selected moves := by
  have hall : ∀ c ∈ selected, ∃ move, targetAndDomain t c = .ok move := by
    intro c hc
    unfold targetAndDomain
    cases hlabel : c.target with
    | none => exact ⟨none, rfl⟩
    | some label =>
        obtain ⟨x, hx⟩ := (h c hc).exists_target w hlabel
        exact ⟨some (x, t.domain c x), bind_eq_ok.mpr ⟨x, hx, rfl⟩⟩
  obtain ⟨targets, htargets⟩ := exists_mapM hall
  exact ⟨targets.filterMap id, targets, htargets, rfl⟩

/-! ### The change -/

/-- What a step changes. -/
structure Change where
  /-- The nodes that are exited. -/
  exits : NodeSet
  /-- The nodes that stay active. -/
  kept : NodeSet
  /-- The history, with what the exits have recorded. -/
  history : HistoryStore
  /-- The nodes that are entered. -/
  entered : NodeSet

/-- The change that some moves make to a configuration. -/
def Change.of (t : Tree) (config : NodeSet) (history : HistoryStore) (moves : List (Nat × Nat)) :
    Change :=
  let exits := moves.foldl (fun acc m => acc.union (t.activeBelow config m.2)) SortedSet.empty
  let kept := config.filter fun i => decide (i ∉ exits)
  let history := exits.toList.foldl (recordExit t config) history
  let entry := moves.foldl (Entry.transition t history kept) SortedSet.empty
  { exits, kept, history, entered := entry.filter fun i => decide (i ∉ kept) }

/-- A step that makes a change. -/
structure Makes (t : Tree) (s : Step) (d : Change) (s' : Step) : Prop where
  config : s'.config = d.kept.union d.entered
  history : s'.history = d.history
  /-- The timers of what is exited are cancelled, then those of what is entered armed. -/
  timers : s'.timers = s.timers ++ (d.exits.toList.reverse.flatMap fun i => cancels (t.node i)) ++
    d.entered.toList.flatMap fun i => arms (t.node i)

/-- Exiting a set: its nodes are recorded, lose their timers and are not active after. -/
theorem exitAll_spec (t : Tree) (s : Step) (exits : NodeSet) :
    (exitAll t s exits).config = s.config.filter (fun i => decide (i ∉ exits)) ∧
      (exitAll t s exits).history = exits.toList.foldl (recordExit t s.config) s.history ∧
      (exitAll t s exits).timers =
        s.timers ++ exits.toList.reverse.flatMap fun i => cancels (t.node i) := by
  refine ⟨SortedSet.ext fun i => ?_, foldl_exitNode_frame⟩
  rw [exitAll, mem_foldl_exitNode, SortedSet.mem_filter, decide_eq_true_eq, List.mem_reverse]
  rfl

/-- Entering a set: what is not active yet becomes active, with its timers. -/
theorem enterAll_spec (t : Tree) (s : Step) (entry : NodeSet) :
    (enterAll t s entry).config = s.config.union (entry.filter fun i => decide (i ∉ s.config)) ∧
      (enterAll t s entry).history = s.history ∧
      (enterAll t s entry).timers = s.timers ++
        (entry.filter fun i => decide (i ∉ s.config)).toList.flatMap fun i => arms (t.node i) := by
  obtain ⟨hconfig, hhistory, htimers⟩ := foldl_completeAbove_same t
    ((entry.filter fun i => decide (i ∉ s.config)).toList.filter fun i => t.kind i == .final)
    ((entry.filter fun i => decide (i ∉ s.config)).toList.foldl (enterNode t) s)
  obtain ⟨hhistory', htimers'⟩ := foldl_enterNode_frame (t := t) (s := s)
    (l := (entry.filter fun i => decide (i ∉ s.config)).toList)
  refine ⟨SortedSet.ext fun i => ?_, hhistory.trans hhistory', htimers.trans htimers'⟩
  rw [enterAll, hconfig, mem_foldl_enterNode, SortedSet.mem_union]
  rfl

/-- After the exits the entries make the change complete. -/
theorem makes_of_exited {moves : List (Nat × Nat)} {exits : NodeSet} {mid : Step}
    (hexits :
      moves.foldl (fun acc m => acc.union (t.activeBelow s.config m.2)) SortedSet.empty = exits)
    (hconfig : mid.config = s.config.filter fun i => decide (i ∉ exits))
    (hhistory : mid.history = exits.toList.foldl (recordExit t s.config) s.history)
    (htimers : mid.timers = s.timers ++ exits.toList.reverse.flatMap fun i => cancels (t.node i)) :
    Makes t s (Change.of t s.config s.history moves) (enterAll t mid
      (moves.foldl (Entry.transition t mid.history mid.config) SortedSet.empty)) := by
  obtain ⟨hconfig', hhistory', htimers'⟩ := enterAll_spec t mid
    (moves.foldl (Entry.transition t mid.history mid.config) SortedSet.empty)
  rw [hconfig, hhistory] at hconfig' hhistory' htimers'
  rw [htimers] at htimers'
  unfold Change.of
  rw [hexits, hconfig, hhistory]
  exact ⟨hconfig', hhistory', htimers'⟩

/-- **What a step does**, when the targets of its candidates are found. -/
theorem microstep_of_moves {selected : List Candidate} {moves : List (Nat × Nat)}
    (h : MovesOf t selected moves) :
    ∃ s', s.microstep t selected = .ok s' ∧
      Makes t s (Change.of t s.config s.history moves) s' := by
  obtain ⟨targets, htargets, rfl⟩ := h
  refine ⟨_, bind_eq_ok.mpr ⟨targets, htargets, rfl⟩, ?_⟩
  obtain ⟨hconfig, hhistory, htimers⟩ := exitAll_spec t s ((targets.filterMap id).foldl
    (fun acc m => acc.union (t.activeBelow s.config m.2)) SortedSet.empty)
  exact makes_of_exited rfl hconfig hhistory htimers

end Statechart.Step
