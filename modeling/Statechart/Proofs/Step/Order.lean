/-
In which order a step acts.

A step has one set of exits and one entry set for all the transitions that it takes.  Both
are walked by number, the exits backwards, so that the whole order of a step rests on one
thing that is nowhere in its loops: a node stands behind everything above it.  `Below.lt` is
where that comes from, and it holds of every tree by its type.

So nothing is asked here of the tree, of the configuration or of how the candidates were
selected.  A node may be exited and entered again, and one that the entry set names while it
is active is passed over; `InOrder` says by membership which nodes act on the way out and on
the way in.
-/
import Statechart.Proofs.Step.Frame

namespace Statechart.Step

open Statechart.Tree Outcome

variable {t : Tree} {s s' : Step} {selected : List Candidate} {moves : List (Nat × Nat)}
  {i : Nat}

/-! ### Document order -/

/-- A set lists no node before one that it lies below. -/
theorem outer_first_toList (C : NodeSet) : C.toList.Pairwise fun a b => ¬ t.Below a b := by
  refine C.ascending.imp fun {a b} hab hbelow => ?_
  have hlt : a < b := Nat.compare_eq_lt.mp hab
  exact Nat.lt_asymm hlt hbelow.lt

/-- Backwards it lists no node before one that lies below it. -/
theorem inner_first_reverse (C : NodeSet) :
    C.toList.reverse.Pairwise fun a b => ¬ t.Below b a :=
  List.pairwise_reverse.mpr (outer_first_toList C)

/-! ### When a step is taken -/

theorem exists_targetAndDomain_iff {c : Candidate} :
    (∃ move, targetAndDomain t c = .ok move) ↔ t.resolves c = true := by
  unfold targetAndDomain resolves targetOf
  cases c.target with
  | none => exact ⟨fun _ => rfl, fun _ => ⟨none, rfl⟩⟩
  | some label =>
      dsimp only
      cases t.resolveTarget c.source label with
      | none => exact ⟨nofun, nofun⟩
      | some x => exact ⟨fun _ => rfl, fun _ => ⟨some (x, t.domain c x), rfl⟩⟩

/-- A step is taken exactly when every target names a node. -/
theorem exists_microstep_iff :
    (∃ s', s.microstep t selected = .ok s') ↔ ∀ c ∈ selected, t.resolves c = true := by
  constructor
  · rintro ⟨s', hstep⟩ c hc
    obtain ⟨targets, htargets, -⟩ := bind_eq_ok.mp hstep
    exact exists_targetAndDomain_iff.mp (exists_of_mapM htargets hc)
  · intro hresolves
    obtain ⟨targets, htargets⟩ :=
      exists_mapM fun c hc => exists_targetAndDomain_iff.mpr (hresolves c hc)
    obtain ⟨s', hstep, -⟩ := microstep_of_moves (s := s) ⟨targets, htargets, rfl⟩
    exact ⟨s', hstep⟩

/-- A step that is taken makes the change of its moves. -/
theorem exists_makes_of_microstep (hstep : s.microstep t selected = .ok s') :
    ∃ moves, MovesOf t selected moves ∧ Makes t s (Change.of t s.config s.history moves) s' := by
  obtain ⟨targets, htargets, -⟩ := bind_eq_ok.mp hstep
  obtain ⟨s'', hstep', hmakes⟩ := microstep_of_moves (s := s) ⟨targets, htargets, rfl⟩
  cases hstep.symm.trans hstep'
  exact ⟨_, ⟨targets, htargets, rfl⟩, hmakes⟩

/-- What a change keeps is what was active and is not exited. -/
theorem mem_kept_iff_not_exited :
    i ∈ (Change.of t s.config s.history moves).kept ↔
      i ∈ s.config ∧ i ∉ (Change.of t s.config s.history moves).exits := by
  unfold Change.of
  rw [SortedSet.mem_filter, decide_eq_true_eq]

/-- What a change enters is what is active after it and was not kept. -/
theorem mem_entered_iff_not_kept : i ∈ (Change.of t s.config s.history moves).entered ↔
    i ∈ (Change.of t s.config s.history moves).after ∧
      i ∉ (Change.of t s.config s.history moves).kept := by
  have hnew : i ∈ (Change.of t s.config s.history moves).entered →
      i ∉ (Change.of t s.config s.history moves).kept := by
    unfold Change.of
    intro h
    exact of_decide_eq_true (SortedSet.mem_filter.mp h).2
  rw [Change.after, SortedSet.mem_union]
  constructor
  · intro h
    exact ⟨Or.inr h, hnew h⟩
  · rintro ⟨h, hkept⟩
    exact h.resolve_left hkept

/-! ### The order -/

/-- What a step does with nodes, and in which order. -/
structure InOrder (t : Tree) (s : Step) (selected : List Candidate) (s' : Step)
    (exited entered : List Nat) : Prop where
  /-- What is active below the domains is exited, and nothing else. -/
  mem_exited : ∀ i, i ∈ exited ↔ i ∈ s.config ∧ Inside t selected i
  nodup_exited : exited.Nodup
  /-- No node is exited before one that lies below it. -/
  inner_first : exited.Pairwise fun a b => ¬ t.Below b a
  /-- What is active afterwards and was not after the exits is entered, and nothing else. -/
  mem_entered : ∀ i, i ∈ entered ↔ i ∈ s'.config ∧ ¬ (i ∈ s.config ∧ i ∉ exited)
  nodup_entered : entered.Nodup
  /-- No node is entered before one that it lies below. -/
  outer_first : entered.Pairwise fun a b => ¬ t.Below a b
  /-- The actions of the transitions run between those of the exits and of the entries. -/
  actions : s'.actions = s.actions ++ (exited.flatMap fun i => (t.node i).exit) ++
    selected.flatMap Candidate.actions ++ entered.flatMap fun i => (t.node i).entry
  /-- What is exited is disarmed before anything is armed. -/
  timers : s'.timers = s.timers ++ (exited.flatMap fun i => cancels (t.node i)) ++
    entered.flatMap fun i => arms (t.node i)

/-- **A step acts in document order.**  It is taken exactly when its targets name nodes.  Then
every node that it exits acts once, before the nodes above it; the transitions act in the order
in which they were selected; and every node that becomes active after the exits acts once, after
the nodes above it. -/
theorem microstep_inOrder (t : Tree) (s : Step) (selected : List Candidate) :
    ((∃ s', s.microstep t selected = .ok s') ↔ ∀ c ∈ selected, t.resolves c = true) ∧
      ∀ s', s.microstep t selected = .ok s' →
        ∃ exited entered, InOrder t s selected s' exited entered := by
  refine ⟨exists_microstep_iff, fun s' hstep => ?_⟩
  obtain ⟨moves, hmoves, hmakes⟩ := exists_makes_of_microstep hstep
  refine ⟨(Change.of t s.config s.history moves).exits.toList.reverse,
    (Change.of t s.config s.history moves).entered.toList, ?_⟩
  exact {
    mem_exited := fun i => by
      rw [List.mem_reverse, SortedSet.mem_toList, mem_exits, hmoves.inside_iff]
    nodup_exited := List.nodup_reverse.mpr (SortedSet.nodup_toList _)
    inner_first := inner_first_reverse _
    mem_entered := fun i => by
      rw [List.mem_reverse, SortedSet.mem_toList, SortedSet.mem_toList,
        mem_entered_iff_not_kept, mem_kept_iff_not_exited, hmakes.config]
      rfl
    nodup_entered := SortedSet.nodup_toList _
    outer_first := outer_first_toList _
    actions := actions_microstep hmoves hstep
    timers := hmakes.timers }

/-- Two regions that an event changes at once, one of them by leaving and entering the same
state. -/
def paradeChart : StateConfig :=
  { StateConfig.blank with
    type := some .parallel
    states := [
      ("a", { StateConfig.blank with
        initial := some "x"
        states := [
          ("x", { StateConfig.blank with
            on := [("GO", [{ CandidateConfig.idle with target := some "y", actions := ["go"] }])]
            exit := ["leave x"] }),
          ("y", { StateConfig.blank with
            initial := some "z"
            states := [("z", { StateConfig.blank with entry := ["enter z"] })]
            entry := ["enter y"] })] }),
      ("b", { StateConfig.blank with
        initial := some "u"
        states := [
          ("u", { StateConfig.blank with
            initial := some "v"
            states := [("v", { StateConfig.blank with exit := ["leave v"] })]
            on := [("GO", [{ CandidateConfig.idle with target := some "u", actions := ["again"] }])]
            after := [("1000", [{ CandidateConfig.idle with actions := ["tick"] }])]
            entry := ["enter u"]
            exit := ["leave u"] })] })] }

/-- What the event selects when the parade starts. -/
def paradeSelection (t : Tree) : Except Error (List Candidate) :=
  Selection.select t ⟨SortedMap.empty, .null, Event.named "GO"⟩ "GO"
    (machineOf t).initialStep.config

/-- The parade goes on from the innermost node outwards and back in. -/
theorem microstep_inOrder_paradeChart : ∃ t selected s' exited entered,
    Tree.build "m" paradeChart = .ok t ∧ paradeSelection t = .ok selected ∧
    (machineOf t).initialStep.microstep t selected = .ok s' ∧
    InOrder t (machineOf t).initialStep selected s' exited entered ∧
    s'.actions = (machineOf t).initialStep.actions ++
      ["leave v", "leave u", "leave x", "go", "again", "enter y", "enter z", "enter u"] ∧
    s'.timers = (machineOf t).initialStep.timers ++
      [.cancel ⟨"m.b.u", Event.afterName 1000 "m.b.u"⟩,
        .arm ⟨"m.b.u", Event.afterName 1000 "m.b.u"⟩ 1000] := by
  obtain ⟨t, ht, hrun⟩ := exists_of_run (x := Tree.build "m" paradeChart)
    (p := fun t => (paradeSelection t).toOption.any fun selected =>
      ((machineOf t).initialStep.microstep t selected).toOption.any fun s' : Step =>
        decide (s'.actions = (machineOf t).initialStep.actions ++
          ["leave v", "leave u", "leave x", "go", "again", "enter y", "enter z", "enter u"] ∧
          s'.timers = (machineOf t).initialStep.timers ++
            [.cancel ⟨"m.b.u", Event.afterName 1000 "m.b.u"⟩,
              .arm ⟨"m.b.u", Event.afterName 1000 "m.b.u"⟩ 1000])) (by decide +kernel)
  obtain ⟨selected, hselected, hrun⟩ := exists_of_run hrun
  obtain ⟨s', hstep, hafter⟩ := exists_of_run hrun
  obtain ⟨hactions, htimers⟩ := of_decide_eq_true hafter
  obtain ⟨exited, entered, horder⟩ :=
    (microstep_inOrder t (machineOf t).initialStep selected).2 s' hstep
  exact ⟨t, selected, s', exited, entered, ht, hselected, hstep, horder, hactions, htimers⟩

end Statechart.Step
