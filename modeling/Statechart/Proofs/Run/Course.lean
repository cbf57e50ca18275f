/-
Runs, step by step.

A course is a run of a machine that may stop between any two steps, in the middle of a
macrostep as well as at rest.  It keeps one `Stride` for each step that has been taken: the
configuration in which the step was taken, and its moves.  Every state that the machine
comes to is at the end of a course (`Reachable.exists_course`).

What a history node remembers can be read off the strides: it is what was active when its
parent was last exited, and nothing if the parent never was (`Recalls`).  One stride keeps
that because all nodes it exits are recorded from the one configuration it starts in.
-/
import Mathlib.Data.List.Induction
import Statechart.Proofs.Run.States

namespace Statechart

open Statechart.Tree Outcome Step

/-- A step of a run: where it was taken, and the targets of its transitions with their
domains. -/
structure Stride where
  config : NodeSet
  moves : List (Nat × Nat)

/-- A step exits a node. -/
def Stride.Exits (t : Tree) (d : Stride) (i : Nat) : Prop :=
  i ∈ d.config ∧ ∃ m ∈ d.moves, t.Below i m.2

instance (t : Tree) (d : Stride) (i : Nat) : Decidable (d.Exits t i) :=
  inferInstanceAs (Decidable (i ∈ d.config ∧ ∃ m ∈ d.moves, t.Below i m.2))

/-- The configuration in which a node was last exited. -/
def lastExit (t : Tree) (i : Nat) (past : List Stride) : Option NodeSet :=
  past.foldl (fun last d => if d.Exits t i then some d.config else last) none

variable {t : Tree} {s s' : Step} {d : Stride} {past : List Stride} {i : Nat}

theorem lastExit_concat : lastExit t i (past ++ [d]) =
    if d.Exits t i then some d.config else lastExit t i past := by
  rw [lastExit, List.foldl_append]
  rfl

/-- A node was active where it was last exited. -/
theorem mem_of_lastExit {C : NodeSet} (h : lastExit t i past = some C) : i ∈ C := by
  induction past using List.reverseRecOn with
  | nil => cases h
  | append_singleton past d ih =>
      rw [lastExit_concat] at h
      split at h
      · rename_i hexits
        cases h
        exact hexits.1
      · exact ih h

/-! ### What is remembered -/

/-- A history node remembers what was active when its parent was last exited. -/
def Recalls (t : Tree) (history : HistoryStore) (past : List Stride) : Prop :=
  ∀ h kind P, t.kind h = .history kind → t.parent h = some P →
    history.get? h = (lastExit t P past).map fun C => ⟨kind, HistoryStore.remembered t kind P C⟩

theorem recalls_nil : Recalls t SortedMap.empty [] := fun _ _ _ _ _ => SortedMap.get?_empty

/-- The exits of a step record the configuration that it was taken in. -/
theorem Recalls.change (w : t.WellFormed) {history : HistoryStore} (h : Recalls t history past)
    (d : Stride) : Recalls t (Change.of t d.config history d.moves).history (past ++ [d]) := by
  intro j kind P hkind hP
  have hexits : P ∈ (Change.of t d.config history d.moves).exits ↔ d.Exits t P := mem_exits
  have hrecorded : (Change.of t d.config history d.moves).history.get? j =
      if d.Exits t P then some ⟨kind, HistoryStore.remembered t kind P d.config⟩
      else history.get? j :=
    (get?_change_history w hkind hP).trans (if_congr hexits rfl rfl)
  rw [hrecorded, lastExit_concat, h j kind P hkind hP]
  split <;> rfl

theorem exists_movesOf_of_microstep {selected : List Candidate}
    (h : s.microstep t selected = .ok s') : ∃ moves, MovesOf t selected moves := by
  obtain ⟨targets, htargets, _⟩ := bind_eq_ok.mp h
  exact ⟨targets.filterMap id, targets, htargets, rfl⟩

/-- A step takes a stride. -/
structure Strides (t : Tree) (s : Step) (d : Stride) (s' : Step) : Prop where
  config : d.config = s.config
  fit : Fit t d.config d.moves
  makes : Makes t s (Change.of t d.config s.history d.moves) s'

/-- A step that has been selected takes the stride of its moves. -/
theorem strides_of_microstep (w : t.WellFormed) (hC : Coherent t s.config) {name : String}
    {selected : List Candidate} (hselected : Selection.Selected t s.config name selected)
    {moves : List (Nat × Nat)} (hmoves : MovesOf t selected moves)
    (hstep : s.microstep t selected = .ok s') : Strides t s ⟨s.config, moves⟩ s' := by
  obtain ⟨s₁, hs₁, hmakes⟩ := microstep_of_moves (s := s) hmoves
  rw [hstep] at hs₁
  cases hs₁
  exact ⟨rfl, hmoves.fit w hC hselected, hmakes⟩

namespace Strides

theorem orderly (w : t.WellFormed) (h : Strides t s d s') (hs : Orderly t s) : Orderly t s' := by
  obtain ⟨config, moves⟩ := d
  obtain ⟨rfl, hfit, hmakes⟩ := h
  refine ⟨?_, ?_⟩
  · rw [hmakes.config]
    exact coherent_after w hs.history hs.config hfit
  · rw [hmakes.history]
    exact made_change hs.history hs.config

theorem recalls (w : t.WellFormed) (h : Strides t s d s') (hs : Recalls t s.history past) :
    Recalls t s'.history (past ++ [d]) := by
  rw [h.makes.history]
  exact hs.change w d

end Strides

/-! ### Courses -/

/-- Where a run has come to. -/
inductive Stage
  /-- The machine is at rest in a state. -/
  | resting (s : State)
  /-- The machine is in the middle of a macrostep. -/
  | amid (e : Surroundings) (s : Step)

namespace Machine

/-- The runs of a machine, with the steps that have been taken. -/
inductive Course (m : Machine) : Stage → List Stride → Prop
  | start : Course m (.amid
      (m.surroundings m.definition.context (Event.named Event.initialName)) m.initialStep) []
  | step {e : Surroundings} {s s' : Step} {past : List Stride} {selected : List Candidate}
      {raised : List String} {moves : List (Nat × Nat)} (course : Course m (.amid e s) past)
      (running : s.done = false) (next : e.next s = .ok (selected, raised)) (some : selected ≠ [])
      (steps : ({ s with raised } : Step).microstep e.tree selected = .ok s')
      (of_selected : MovesOf e.tree selected moves) :
      Course m (.amid e s') (past ++ [⟨s.config, moves⟩])
  | done {e : Surroundings} {s : Step} {past : List Stride} {state : State}
      (course : Course m (.amid e s) past) (done : s.done = true)
      (finish : m.finish e.context e.origin s = .ok state) : Course m (.resting state) past
  | rest {e : Surroundings} {s : Step} {past : List Stride} {raised : List String} {state : State}
      (course : Course m (.amid e s) past) (running : s.done = false)
      (next : e.next s = .ok ([], raised))
      (finish : m.finish e.context e.origin { s with raised } = .ok state) :
      Course m (.resting state) past
  | ignored {s : State} {event : Event} {past : List Stride} (course : Course m (.resting s) past)
      (ignores : m.transition s event = .ok (s.unchanged event)) :
      Course m (.resting (s.unchanged event)) past
  | context {s : State} {past : List Stride} (patch : List (String × Json))
      (course : Course m (.resting s) past) :
      Course m (.resting { s with context := Session.merged s.context patch }) past
  | event {s : State} {e : Event} {past : List Stride} {config : NodeSet} {step : Step}
      {selected : List Candidate} {moves : List (Nat × Nat)} (course : Course m (.resting s) past)
      (running : s.done = false) (reads : m.configuration s.value = .ok config)
      (selects : (m.surroundings s.context e).select config e e.name = .ok selected)
      (some : selected ≠ [])
      (steps : (Step.start config s.history).microstep m.tree selected = .ok step)
      (of_selected : MovesOf m.tree selected moves) :
      Course m (.amid (m.surroundings s.context e) step) (past ++ [⟨config, moves⟩])

variable {m : Machine} {e : Surroundings} {stage : Stage}

/-- A macrostep that ends takes a course to rest. -/
theorem Course.exists_resting {limit budget : Nat} {rest : Step} {state : State}
    (hfinish : m.finish e.context e.origin rest = .ok state) :
    ∀ {s : Step} {past : List Stride}, Course m (.amid e s) past →
      e.settle limit budget s = .ok rest → ∃ past', Course m (.resting state) past' := by
  induction budget using Nat.strong_induction_on with
  | _ budget ih =>
      intro s past hcourse h
      rcases Surroundings.settle_cases h with ⟨hdone, rfl⟩ | ⟨hdone, selected, raised, hnext, h⟩
      · exact ⟨past, hcourse.done hdone hfinish⟩
      rcases h with ⟨rfl, rfl⟩ | ⟨budget', s₁, rfl, hsome, hs₁, h⟩
      · exact ⟨past, hcourse.rest hdone hnext hfinish⟩
      · obtain ⟨moves, hmoves⟩ := exists_movesOf_of_microstep hs₁
        exact ih budget' (Nat.lt_succ_self _) (hcourse.step hdone hnext hsome hs₁ hmoves) h

/-- **Every state that a machine comes to is at the end of a course.** -/
theorem Reachable.exists_course {s : State} (h : Reachable m s) :
    ∃ past, Course m (.resting s) past := by
  induction h with
  | initial hstart =>
      obtain ⟨rest, hrest, hfinish⟩ := bind_eq_ok.mp hstart
      exact Course.exists_resting hfinish .start hrest
  | event _ htransition ih =>
      obtain ⟨past, hcourse⟩ := ih
      obtain ⟨log, hleads⟩ : ∃ log, Leads m _ _ _ log := ⟨_, leads_of_transition htransition⟩
      cases hleads with
      | ignored => exact ⟨past, hcourse.ignored htransition⟩
      | steps hsteps hfinish =>
          obtain ⟨moves, hmoves⟩ := exists_movesOf_of_microstep hsteps.steps
          exact Course.exists_resting hfinish (hcourse.event hsteps.running hsteps.reads
            hsteps.selects hsteps.some hsteps.steps hmoves) hsteps.settle
  | context patch _ ih =>
      obtain ⟨past, hcourse⟩ := ih
      exact ⟨past, hcourse.context patch⟩

/-! ### What every course keeps -/

/-- What holds in the middle of a macrostep. -/
structure Striding (m : Machine) (e : Surroundings) (s : Step) (past : List Stride) : Prop where
  tree : e.tree = m.tree
  orderly : Orderly m.tree s
  recalls : Recalls m.tree s.history past
  /-- The last stride has led here. -/
  last : ∀ before d, past = before ++ [d] → ∃ s₀, Orderly m.tree s₀ ∧
    Recalls m.tree s₀.history before ∧ Strides m.tree s₀ d s

/-- A stride from where everything holds. -/
theorem striding_of_strides (w : m.tree.WellFormed) (htree : e.tree = m.tree)
    (hs : Orderly m.tree s) (hrecalls : Recalls m.tree s.history past)
    (h : Strides m.tree s d s') : Striding m e s' (past ++ [d]) where
  tree := htree
  orderly := h.orderly w hs
  recalls := h.recalls w hrecalls
  last before d' heq := by
    obtain ⟨rfl, hd⟩ := List.append_inj' heq rfl
    cases hd
    exact ⟨s, hs, hrecalls, h⟩

/-- What holds of a stage of a run. -/
def Invariant (m : Machine) (past : List Stride) : Stage → Prop
  | .resting s => Standing m s ∧ Recalls m.tree s.history past
  | .amid e s => Striding m e s past

theorem invariant_of_finish {context : Json} {event : Event} {rest : Step} {state : State}
    (hrest : Orderly m.tree rest) (hrecalls : Recalls m.tree rest.history past)
    (h : m.finish context event rest = .ok state) : Invariant m past (.resting state) := by
  refine ⟨standing_of_finish hrest h, ?_⟩
  rw [(finish_eq_ok h).2.1]
  exact hrecalls

/-- **What holds of every stage of a run.** -/
theorem Course.invariant (w : m.tree.WellFormed) (h : Course m stage past) :
    Invariant m past stage := by
  induction h with
  | start =>
      refine ⟨rfl, orderly_initialStep w, ?_, fun before d heq => absurd heq (by simp)⟩
      rw [history_initialStep]
      exact recalls_nil
  | @step e s s' past selected raised moves _ _ hnext hsome hstep hmoves ih =>
      obtain ⟨event, name, hselect⟩ := (Surroundings.next_selected hnext).resolve_left hsome
      have hs : Orderly m.tree { s with raised } := ⟨ih.orderly.config, ih.orderly.history⟩
      rw [ih.tree] at hstep hmoves
      rw [Surroundings.select, ih.tree] at hselect
      exact striding_of_strides w ih.tree hs ih.recalls (strides_of_microstep w hs.config
        (Selection.selected_of_select w hs.config hselect) hmoves hstep)
  | done _ _ hfinish ih => exact invariant_of_finish ih.orderly ih.recalls hfinish
  | @rest e s past raised state _ _ _ hfinish ih =>
      have hs : Orderly m.tree { s with raised } := ⟨ih.orderly.config, ih.orderly.history⟩
      exact invariant_of_finish hs ih.recalls hfinish
  | ignored _ _ ih => exact ⟨⟨ih.1.value, ih.1.history⟩, ih.2⟩
  | context _ _ ih => exact ⟨⟨ih.1.value, ih.1.history⟩, ih.2⟩
  | @event s e past config step selected moves _ _ hreads hselects _ hstep hmoves ih =>
      obtain ⟨hstanding, hrecalls⟩ := ih
      have hs := orderly_start w hstanding hreads
      exact striding_of_strides w rfl hs hrecalls (strides_of_microstep w hs.config
        (Selection.selected_of_select w hs.config hselects) hmoves hstep)

end Machine

end Statechart
