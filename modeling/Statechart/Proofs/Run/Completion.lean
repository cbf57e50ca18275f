/-
Which parallel nodes a step completes.

A parallel node is finished when its regions are: a final one if it is active, a compound
one in a final child, a parallel one if all of its own are (`Finished`).  A node has ended
with a step if it is active and finished after it and was not both before (`Ended`), and
the step should tell so, by the completion event of the node and, for the root, by ending
the machine.

What a step looks at is less: the nodes one and two levels above each final node that it
enters (`Completes`).  That is enough for every node that has a region, not parallel
itself, which was not finished before.  A node all of whose other regions were finished
already is ended by its parallel regions alone, from further below, and the step tells of
it only if a final node arrives near it by the way (`Arrival`).
-/
import Statechart.Proofs.Run.Moments
import Statechart.Proofs.Value.Described

namespace Statechart.Step

open Statechart.Tree Outcome

variable {t : Tree} {s s' s'' : Step} {C C' : NodeSet} {i f r p : Nat} {A B : Nat → Prop}

/-! ### Finished nodes -/

/-- A node with everything below it is in its final states. -/
inductive Finished (t : Tree) (C : NodeSet) : Nat → Prop
  | final {i : Nat} (kind : t.kind i = .final) (active : i ∈ C) : Finished t C i
  | compound {i c : Nat} (kind : t.kind i = .compound) (region : c ∈ t.regions i)
      (final : t.kind c = .final) (active : c ∈ C) : Finished t C i
  | parallel {i : Nat} (kind : t.kind i = .parallel)
      (regions : ∀ r ∈ t.regions i, Finished t C r) : Finished t C i

theorem finished_final (hkind : t.kind i = .final) : Finished t C i ↔ i ∈ C := by
  refine ⟨fun h => ?_, .final hkind⟩
  cases h with
  | final _ active => exact active
  | compound kind _ _ _ => rw [hkind] at kind; cases kind
  | parallel kind _ => rw [hkind] at kind; cases kind

theorem finished_compound (hkind : t.kind i = .compound) :
    Finished t C i ↔ ∃ c ∈ t.regions i, t.kind c = .final ∧ c ∈ C := by
  refine ⟨fun h => ?_, fun ⟨c, hc, hfinal, hactive⟩ => .compound hkind hc hfinal hactive⟩
  cases h with
  | final kind _ => rw [hkind] at kind; cases kind
  | compound _ region final active => exact ⟨_, region, final, active⟩
  | parallel kind _ => rw [hkind] at kind; cases kind

theorem finished_parallel (hkind : t.kind i = .parallel) :
    Finished t C i ↔ ∀ r ∈ t.regions i, Finished t C r := by
  refine ⟨fun h => ?_, .parallel hkind⟩
  cases h with
  | final kind _ => rw [hkind] at kind; cases kind
  | compound kind _ _ _ => rw [hkind] at kind; cases kind
  | parallel _ regions => exact regions

theorem not_finished_of_kind (h : t.kind i ≠ .final) (h' : (t.kind i).hasChildren = false) :
    ¬ Finished t C i := by
  intro hfinished
  cases hfinished with
  | final kind _ => exact h kind
  | compound kind _ _ _ => rw [kind] at h'; cases h'
  | parallel kind _ => rw [kind] at h'; cases h'

/-- The test that a step runs is `Finished`. -/
theorem allRegionsFinal_iff (w : t.WellFormed) (hkind : t.kind i = .parallel) :
    allRegionsFinal t C i = true ↔ Finished t C i := by
  induction hk : t.size - i using Nat.strong_induction_on generalizing i with
  | _ k ih =>
      rw [allRegionsFinal, List.all_eq_true, finished_parallel hkind, Subtype.forall]
      refine forall₂_congr fun r hmem => ?_
      rw [imp_iff_right (List.mem_attach _ _)]
      have hlt := lt_of_child (children_of_mem_regions hmem).1
      have hbare : (t.kind r).hasChildren = false → t.regions r = [] := fun h =>
        List.eq_nil_iff_forall_not_mem.mpr fun c hc => by
          rw [w.hasChildren (w.mem_regions.mp hc).1] at h
          cases h
      cases hr : t.kind r with
      | final => rw [finished_final hr]; exact decide_eq_true_iff
      | parallel => exact ih (t.size - r) (by omega) hr rfl
      | compound =>
          rw [finished_compound hr]
          simp only [List.any_eq_true, Bool.and_eq_true, beq_iff_eq, decide_eq_true_eq]
      | atomic | history _ =>
          simp only [hbare (by rw [hr]; rfl), List.any_nil, Bool.false_eq_true, false_iff]
          exact not_finished_of_kind (by rw [hr]; exact NodeKind.noConfusion) (by rw [hr]; rfl)

/-! ### What is told of completion -/

/-- What the later of two steps tells more than the earlier: the completion of some nodes. -/
structure Raises (t : Tree) (s s' : Step) (A : Nat → Prop) : Prop where
  raised : ∀ e, e ∈ s'.raised ↔ e ∈ s.raised ∨ ∃ i, A i ∧ Event.doneName (t.node i).id = e
  done : s'.done = true ↔ s.done = true ∨ A Tree.root

namespace Raises

theorem refl (t : Tree) (s : Step) : Raises t s s fun _ => False :=
  ⟨fun _ => by simp, by simp⟩

theorem trans (h : Raises t s s' A) (h' : Raises t s' s'' B) :
    Raises t s s'' fun i => A i ∨ B i := by
  refine ⟨fun e => ?_, ?_⟩
  · rw [h'.raised, h.raised, or_assoc, ← exists_or]
    simp only [or_and_right]
  · rw [h'.done, h.done, or_assoc]

theorem congr (h : Raises t s s' A) (hAB : ∀ i, A i ↔ B i) : Raises t s s' B := by
  rwa [← funext fun i => propext (hAB i)]

/-- Steps that tell the same may be put in the place of the first. -/
theorem of_quiet (h : Raises t s s' A) (hraised : s.raised = s''.raised)
    (hdone : s.done = s''.done) : Raises t s'' s' A :=
  ⟨by rw [← hraised]; exact h.raised, by rw [← hdone]; exact h.done⟩

end Raises

theorem raises_complete (t : Tree) (s : Step) (i : Nat) :
    Raises t s (complete t s i) (· = i) := by
  refine ⟨fun e => ?_, ?_⟩
  · simp only [exists_eq_left]
    unfold complete
    dsimp only
    split
    · rename_i hraised
      exact ⟨Or.inl, fun h => h.elim id fun h => h ▸ hraised⟩
    · rw [List.mem_append, List.mem_singleton, eq_comm (a := e)]
  · rw [complete, Bool.or_eq_true, beq_iff_eq, eq_comm (a := i)]

theorem raises_completeParallel (w : t.WellFormed) (hkind : t.kind i = .parallel) :
    Raises t s (completeParallel t s i) fun j => j = i ∧ Finished t s.config i := by
  unfold completeParallel
  split
  · rename_i h
    refine (raises_complete t s i).congr fun j => ?_
    exact (and_iff_left ((allRegionsFinal_iff w hkind).mp h)).symm
  · rename_i h
    refine (Raises.refl t s).congr fun j => ?_
    exact iff_of_false id fun hfinished => h ((allRegionsFinal_iff w hkind).mpr hfinished.2)

/-- The nodes that a final node completes when it is entered. -/
inductive Completes (t : Tree) (C : NodeSet) (f : Nat) : Nat → Prop
  | parent {p : Nat} (parent : t.parent f = some p)
      (finished : t.kind p = .parallel → Finished t C p) : Completes t C f p
  | above {p q : Nat} (parent : t.parent f = some p) (kind : t.kind p ≠ .parallel)
      (above : t.parent p = some q) (kind_above : t.kind q = .parallel)
      (finished : Finished t C q) : Completes t C f q

theorem not_completes (hparent : t.parent f = none) : ¬ Completes t C f i := by
  rintro (⟨h, _⟩ | ⟨h, _, _, _, _⟩) <;> rw [hparent] at h <;> cases h

theorem completes_iff (hparent : t.parent f = some p) :
    Completes t C f i ↔ (i = p ∧ (t.kind p = .parallel → Finished t C p)) ∨
      (t.kind p ≠ .parallel ∧ t.parent p = some i ∧ t.kind i = .parallel ∧ Finished t C i) := by
  constructor
  · rintro (⟨h, hfinished⟩ | ⟨h, hkind, habove, hkind', hfinished⟩) <;>
      obtain rfl := Option.some.inj (hparent.symm.trans h)
    · exact Or.inl ⟨rfl, hfinished⟩
    · exact Or.inr ⟨hkind, habove, hkind', hfinished⟩
  · rintro (⟨rfl, hfinished⟩ | ⟨hkind, habove, hkind', hfinished⟩)
    · exact .parent hparent hfinished
    · exact .above hparent hkind habove hkind' hfinished

theorem Completes.lt_size (h : Completes t C f i) : i < t.size := by
  rcases h with ⟨h, _⟩ | ⟨_, _, h, _, _⟩ <;>
    exact Nat.lt_trans (lt_of_parent h) (lt_size_of_parent h)

theorem raises_completeAbove (w : t.WellFormed) :
    Raises t s (completeAbove t s f) (Completes t s.config f) := by
  unfold completeAbove
  cases hparent : t.parent f with
  | none => exact (Raises.refl t s).congr fun i => iff_of_false id (not_completes hparent)
  | some p =>
      dsimp only
      split
      · rename_i hkind
        refine (raises_completeParallel w hkind).congr fun i => ?_
        simp [completes_iff hparent, hkind]
      rename_i hkind
      have hbelow := raises_complete t s p
      cases habove : t.parent p with
      | none =>
          refine hbelow.congr fun i => ?_
          simp [completes_iff hparent, hkind, habove]
      | some q =>
          dsimp only
          split
          · rename_i hq
            refine (hbelow.trans (raises_completeParallel w hq)).congr fun i => ?_
            have hat : i = q ∧ Finished t s.config q ↔
                q = i ∧ t.kind i = .parallel ∧ Finished t s.config i := by
              refine ⟨?_, ?_⟩
              · rintro ⟨rfl, h⟩
                exact ⟨rfl, hq, h⟩
              · rintro ⟨rfl, _, h⟩
                exact ⟨rfl, h⟩
            simp [completes_iff hparent, hkind, habove, complete, hat]
          · rename_i hq
            refine hbelow.congr fun i => ?_
            have hat : ¬ (q = i ∧ t.kind i = .parallel ∧ Finished t s.config i) := by
              rintro ⟨rfl, h, _⟩
              exact hq h
            simp [completes_iff hparent, hkind, habove, hat]

/-- What the final nodes of a list complete. -/
theorem raises_foldl_completeAbove (w : t.WellFormed) {l : List Nat} :
    ∀ {s : Step}, Raises t s (l.foldl (completeAbove t) s) fun i =>
      ∃ f ∈ l, Completes t s.config f i := by
  induction l with
  | nil => exact fun {s} => (Raises.refl t s).congr fun i => by simp
  | cons f rest ih =>
      intro s
      refine ((raises_completeAbove w).trans ih).congr fun i => ?_
      rw [(completeAbove_same t s f).config, List.exists_mem_cons_iff]

theorem foldl_enterNode_quiet {l : List Nat} :
    ∀ {s : Step}, (l.foldl (enterNode t) s).raised = s.raised ∧
      (l.foldl (enterNode t) s).done = s.done := by
  induction l with
  | nil => exact ⟨rfl, rfl⟩
  | cons i rest ih => exact ih (s := enterNode t _ i)

theorem foldl_exitNode_quiet {l : List Nat} :
    ∀ {s : Step}, (l.foldl (exitNode t) s).raised = s.raised ∧
      (l.foldl (exitNode t) s).done = s.done := by
  induction l with
  | nil => exact ⟨rfl, rfl⟩
  | cons i rest ih => exact ih (s := exitNode t _ i)

/-- What entering a set completes. -/
theorem raises_enterAll (w : t.WellFormed) {entry : NodeSet} :
    Raises t s (enterAll t s entry) fun i =>
      ∃ f ∈ entry.filter (fun i => decide (i ∉ s.config)), t.kind f = .final ∧
        Completes t (enterAll t s entry).config f i := by
  have hfold := raises_foldl_completeAbove w
    (l := (entry.filter fun i => decide (i ∉ s.config)).toList.filter fun i => t.kind i == .final)
    (s := (entry.filter fun i => decide (i ∉ s.config)).toList.foldl (enterNode t) s)
  obtain ⟨hraised, hdone⟩ := foldl_enterNode_quiet (t := t) (s := s)
    (l := (entry.filter fun i => decide (i ∉ s.config)).toList)
  refine (hfold.of_quiet hraised hdone).congr fun i => ?_
  rw [enterAll, (foldl_completeAbove_same t _ _).config]
  simp only [List.mem_filter, SortedSet.mem_toList, beq_iff_eq, and_assoc]

/-- What a step completes. -/
theorem raises_microstep (w : t.WellFormed) {selected : List Candidate}
    {moves : List (Nat × Nat)} (hmoves : MovesOf t selected moves)
    (hstep : s.microstep t selected = .ok s') :
    Raises t s s' fun i => ∃ f ∈ (Change.of t s.config s.history moves).entered,
      t.kind f = .final ∧ Completes t s'.config f i := by
  obtain ⟨targets, htargets, rfl⟩ := hmoves
  obtain ⟨_, htargets', hstep⟩ := bind_eq_ok.mp hstep
  cases htargets.symm.trans htargets'
  cases hstep
  obtain ⟨hconfig, hhistory, _⟩ := exitAll_spec t s ((targets.filterMap id).foldl
    (fun acc m => acc.union (t.activeBelow s.config m.2)) SortedSet.empty)
  unfold Change.of
  dsimp only
  rw [← hconfig, ← hhistory]
  obtain ⟨hraised, hdone⟩ := foldl_exitNode_quiet (t := t)
  exact (raises_enterAll w).of_quiet hraised hdone

/-- What the start completes. -/
theorem raises_initialStep {m : Machine} (w : m.tree.WellFormed) :
    Raises m.tree (start SortedSet.empty SortedMap.empty) m.initialStep fun i =>
      ∃ f ∈ m.initialStep.config, m.tree.kind f = .final ∧
        Completes m.tree m.initialStep.config f i := by
  have hentered : ∀ f, f ∈ m.initialStep.config ↔
      f ∈ (Entry.withDefaults m.tree SortedSet.empty Tree.root).filter
        fun i => decide (i ∉ (start SortedSet.empty SortedMap.empty).config) := fun f => by
    rw [Machine.initialStep, (enterAll_spec _ _ _).1, SortedSet.mem_union]
    exact or_iff_right SortedSet.not_mem_empty
  simp only [hentered]
  exact raises_enterAll w

/-! ### Nodes that end -/

/-- Two nodes with one completion event have one id. -/
theorem doneName_inj {a b : String} (h : Event.doneName a = Event.doneName b) : a = b := by
  simpa [Event.doneName] using h

/-- A parallel node that a step has ended: it is active and finished, and was not both before. -/
structure Ended (t : Tree) (before after : NodeSet) (i : Nat) : Prop where
  kind : t.kind i = .parallel
  active : i ∈ after
  finished : Finished t after i
  fresh : ¬ (i ∈ before ∧ Finished t before i)

/-- Whether a node has ended. -/
def hasEnded (t : Tree) (before after : NodeSet) (i : Nat) : Bool :=
  t.kind i == .parallel && decide (i ∈ after) && allRegionsFinal t after i &&
    !(decide (i ∈ before) && allRegionsFinal t before i)

theorem hasEnded_iff (w : t.WellFormed) : hasEnded t C C' i = true ↔ Ended t C C' i := by
  simp only [hasEnded, Bool.and_eq_true, Bool.not_eq_true', beq_iff_eq, decide_eq_true_eq,
    ← Bool.not_eq_true]
  constructor
  · rintro ⟨⟨⟨hkind, hactive⟩, hfinished⟩, hfresh⟩
    rw [allRegionsFinal_iff w hkind] at hfinished hfresh
    exact ⟨hkind, hactive, hfinished, hfresh⟩
  · rintro ⟨hkind, hactive, hfinished, hfresh⟩
    rw [allRegionsFinal_iff w hkind, allRegionsFinal_iff w hkind]
    exact ⟨⟨⟨hkind, hactive⟩, hfinished⟩, hfresh⟩

/-- A final node has been entered that is a region of a node, or the child of a region that
is not parallel. -/
def Arrival (t : Tree) (entered : Nat → Prop) (i : Nat) : Prop :=
  ∃ f, entered f ∧ t.kind f = .final ∧
    (t.parent f = some i ∨ ∃ r, t.parent f = some r ∧ t.kind r ≠ .parallel ∧ t.parent r = some i)

/-- A parallel node that is finished is completed by the final nodes that arrive. -/
theorem completes_iff_arrives (hkind : t.kind i = .parallel) (hfinished : Finished t C i) :
    Completes t C f i ↔ t.parent f = some i ∨
      ∃ r, t.parent f = some r ∧ t.kind r ≠ .parallel ∧ t.parent r = some i := by
  constructor
  · rintro (⟨h, _⟩ | ⟨h, hr, habove, _, _⟩)
    · exact Or.inl h
    · exact Or.inr ⟨_, h, hr, habove⟩
  · rintro (h | ⟨r, h, hr, habove⟩)
    · exact .parent h fun _ => hfinished
    · exact .above h hr habove hkind hfinished

/-- Whether a step tells of a node that has ended. -/
structure Tells (t : Tree) (s s' : Step) (entered : Nat → Prop) (i : Nat) : Prop where
  /-- The event of the node is raised when a final node arrives, and not otherwise. -/
  raised : Event.doneName (t.node i).id ∈ s'.raised ↔
    Event.doneName (t.node i).id ∈ s.raised ∨ Arrival t entered i
  /-- So does the root end the machine. -/
  done : i = Tree.root → (s'.done = true ↔ s.done = true ∨ Arrival t entered i)
  /-- A final node arrives if a region was not finished before and is not parallel itself. -/
  arrival : (∃ r ∈ t.regions i, t.kind r ≠ .parallel ∧ ¬ (r ∈ s.config ∧ Finished t s.config r)) →
    Arrival t entered i

/-- A region that is not parallel is finished by a final node that is entered. -/
theorem arrival_of_region (w : t.WellFormed) {entered : Nat → Prop}
    (hparent : ∀ i ∈ C, ∀ p, t.parent i = some p → p ∈ C)
    (hentered : ∀ f ∈ C', f ∈ C ∨ entered f) (hfinished : ∀ r ∈ t.regions i, Finished t C' r)
    (hr : r ∈ t.regions i) (hkind : t.kind r ≠ .parallel)
    (hfresh : ¬ (r ∈ C ∧ Finished t C r)) : Arrival t entered i := by
  have hri := (w.mem_regions.mp hr).1
  cases hfinished r hr with
  | final hfinal hactive =>
      refine ⟨r, (hentered r hactive).resolve_left fun h => hfresh ⟨h, .final hfinal h⟩, hfinal,
        Or.inl hri⟩
  | @compound _ c hcompound hc hfinal hactive =>
      have hcr := (w.mem_regions.mp hc).1
      refine ⟨c, (hentered c hactive).resolve_left fun h => hfresh ?_, hfinal,
        Or.inr ⟨r, hcr, hkind, hri⟩⟩
      exact ⟨hparent c h r hcr, .compound hcompound hc hfinal h⟩
  | parallel h _ => exact absurd h hkind

/-- What a step raises tells of the nodes that end. -/
theorem Raises.tells (w : t.WellFormed) {entered : Nat → Prop}
    (h : Raises t s s' fun i => ∃ f, entered f ∧ t.kind f = .final ∧ Completes t s'.config f i)
    (hparent : ∀ i ∈ s.config, ∀ p, t.parent i = some p → p ∈ s.config)
    (hentered : ∀ f ∈ s'.config, f ∈ s.config ∨ entered f)
    (hended : Ended t s.config s'.config i) : Tells t s s' entered i := by
  have hcompletes : (∃ f, entered f ∧ t.kind f = .final ∧ Completes t s'.config f i) ↔
      Arrival t entered i :=
    exists_congr fun f => and_congr_right fun _ => and_congr_right fun _ =>
      completes_iff_arrives hended.kind hended.finished
  refine ⟨?_, ?_, ?_⟩
  · rw [h.raised, ← hcompletes]
    refine or_congr_right ⟨?_, fun hcomplete => ⟨i, hcomplete, rfl⟩⟩
    rintro ⟨j, ⟨f, hf⟩, hname⟩
    obtain rfl := w.eq_of_id hf.2.2.lt_size (lt_size_of_parallel hended.kind) (doneName_inj hname)
    exact ⟨f, hf⟩
  · rintro rfl
    rw [h.done, hcompletes]
  · rintro ⟨r, hr, hkind, hfresh⟩
    exact arrival_of_region w hparent hentered
      ((finished_parallel hended.kind).mp hended.finished) hr hkind hfresh

theorem entered_mem_microstepLog {selected : List Candidate} {moves : List (Nat × Nat)}
    (hmoves : MovesOf t selected moves) :
    .entered f ∈ microstepLog t s selected ↔
      f ∈ (Change.of t s.config s.history moves).entered := by
  obtain ⟨targets, htargets, rfl⟩ := hmoves
  rw [microstepLog, htargets]
  simp [Change.moments, SortedSet.mem_toList]

/-- **When a step tells of the nodes that it ends.**  Whatever is selected in a coherent
configuration, the step raises the event of a parallel node that it ends, and ends the machine
with the root, exactly when a final node arrives at the node or at a region of it that is not
parallel; that is the case if some such region was not finished before.  The start does the
same. -/
theorem tells_of_ended {name : String} {c : StateConfig} (h : Tree.build name c = .ok t) :
    (∀ (s : Step) (scope : GuardScope) (event : String) (selected : List Candidate),
      Coherent t s.config → Selection.select t scope event s.config = .ok selected →
      ∃ s', s.microstep t selected = .ok s' ∧ ∀ i, Ended t s.config s'.config i →
        Tells t s s' (fun f => .entered f ∈ microstepLog t s selected) i) ∧
    ∀ m : Machine, m.tree = t → ∀ i, Ended t SortedSet.empty m.initialStep.config i →
      Tells t (start SortedSet.empty SortedMap.empty) m.initialStep
        (fun f => f ∈ m.initialStep.config) i := by
  have w : t.WellFormed := wellFormed_of_build h
  refine ⟨?_, ?_⟩
  · intro s scope event selected hC hselect
    obtain ⟨moves, hmoves⟩ := exists_movesOf w (Selection.selected_of_select w hC hselect).proposed
    obtain ⟨s', hs', hmakes⟩ := microstep_of_moves (s := s) hmoves
    refine ⟨s', hs', fun i hended => ?_⟩
    simp only [entered_mem_microstepLog hmoves]
    refine (raises_microstep w hmoves hs').tells w hC.parent (fun f hf => ?_) hended
    rw [hmakes.config, SortedSet.mem_union] at hf
    exact hf.imp_left fun h => (SortedSet.mem_filter.mp h).1
  · rintro m rfl i hended
    exact (raises_initialStep w).tells w (fun i hi => absurd hi SortedSet.not_mem_empty)
      (fun f hf => Or.inr hf) hended

/-! ### Two roots that end -/

/-- A region that an event takes to its final state. -/
def lap (first last : String) : StateConfig :=
  { StateConfig.blank with
    initial := some first
    states := [
      (first, { StateConfig.blank with
        on := [("GO", [{ CandidateConfig.idle with target := some last }])] }),
      (last, { StateConfig.blank with type := some .final })] }

/-- A parallel node with some regions. -/
def race (regions : List (String × StateConfig)) : StateConfig :=
  { StateConfig.blank with type := some .parallel, states := regions }

/-- A race whose first event ends the root. -/
theorem exists_end_of_race (c : StateConfig) (raised : Bool)
    (h : (Tree.build "m" c).toOption.any (fun t =>
      (Selection.select t ⟨SortedMap.empty, .null, Event.named "GO"⟩ "GO"
          (machineOf t).initialStep.config).toOption.any fun selected =>
        ((machineOf t).initialStep.microstep t selected).toOption.any fun s' =>
          hasEnded t (machineOf t).initialStep.config s'.config Tree.root && s'.done == raised) =
      true) :
    ∃ t selected s', Tree.build "m" c = .ok t ∧
      Legal t (machineOf t).initialStep.config ∧
      Selection.select t ⟨SortedMap.empty, .null, Event.named "GO"⟩ "GO"
        (machineOf t).initialStep.config = .ok selected ∧
      (machineOf t).initialStep.microstep t selected = .ok s' ∧
      Ended t (machineOf t).initialStep.config s'.config Tree.root ∧ s'.done = raised := by
  obtain ⟨t, ht, h⟩ := exists_of_run h
  obtain ⟨selected, hselect, h⟩ := exists_of_run h
  obtain ⟨s', hs', h⟩ := exists_of_run h
  obtain ⟨hended, hdone⟩ := Bool.and_eq_true_iff.mp h
  have w : t.WellFormed := wellFormed_of_build ht
  exact ⟨t, selected, s', ht, legal_initialStep (m := machineOf t) w, hselect, hs',
    (hasEnded_iff w).mp hended, beq_iff_eq.mp hdone⟩

/-- A root with a region of its own and one in a parallel region tells of its end. -/
theorem tells_of_ended_race : ∃ t s s' entered,
    Tree.build "m" (race [("a", lap "x" "y"), ("q", race [("b", lap "u" "v")])]) = .ok t ∧
      Ended t s.config s'.config Tree.root ∧ Tells t s s' entered Tree.root ∧ s'.done = true := by
  obtain ⟨t, selected, s', ht, hlegal, hselect, hs', hended, hdone⟩ := exists_end_of_race
    (race [("a", lap "x" "y"), ("q", race [("b", lap "u" "v")])]) true (by decide +kernel)
  obtain ⟨s'', hs'', htells⟩ :=
    (tells_of_ended ht).1 (machineOf t).initialStep _ "GO" selected hlegal.toCoherent hselect
  rw [hs'] at hs''
  cases hs''
  exact ⟨t, _, s', _, ht, hended, htells _ hended, hdone⟩

/-- The end of a root may be missed: its only region is parallel, and ends from below. -/
theorem exists_missed_race : ¬ ∀ (name : String) (c : StateConfig) (t : Tree) (s : Step)
    (scope : GuardScope) (event : String) (selected : List Candidate) (s' : Step) (i : Nat),
    Tree.build name c = .ok t → Legal t s.config →
      Selection.select t scope event s.config = .ok selected →
      s.microstep t selected = .ok s' → Ended t s.config s'.config i →
        Event.doneName (t.node i).id ∈ s'.raised ∧ (i = Tree.root → s'.done = true) := by
  intro hall
  obtain ⟨t, selected, s', ht, hlegal, hselect, hs', hended, hdone⟩ := exists_end_of_race
    (race [("q", race [("a", lap "x" "y")])]) false (by decide +kernel)
  have htold := (hall _ _ t _ _ _ selected s' _ ht hlegal hselect hs' hended).2 rfl
  rw [hdone] at htold
  cases htold

end Statechart.Step
