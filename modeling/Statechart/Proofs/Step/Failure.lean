/-
What a machine that runs may fail with.

A step fails because of a guard, or because a target or a value does not belong to the machine;
a run fails for one of these reasons, or because it does not come to rest.  None of it depends
on how the tree came about.  Of a tree that has been loaded much more is known, but a machine
has to tell its errors apart in any case, and what is proved of the limit needs that no step
fails with the error of the limit.
-/
import Mathlib.Data.Nat.Init
import Statechart.Machine
import Statechart.Proofs.Outcome

namespace Statechart

open Outcome

/-- What a step may fail with. -/
inductive Error.OfStep : Error → Prop
  | guard (cause : GuardFailure) : OfStep (.guard cause)
  | transition (cause : TransitionFault) : OfStep (.transition cause)

/-- What a run may fail with. -/
inductive Error.OfRun : Error → Prop
  | step {e : Error} (ofStep : OfStep e) : OfRun e
  | cycle (event : String) (limit : Nat) : OfRun (.transientCycle event limit)

section

variable (t : Tree) (scope : GuardScope)

theorem failsOnly_targetOf (c : Candidate) (label : String) :
    FailsOnly Error.OfStep (t.targetOf c label) := by
  unfold Tree.targetOf
  split
  · exact .ok _
  · exact .error (.transition _)

theorem failsOnly_exitSet (config : NodeSet) (c : Candidate) :
    FailsOnly Error.OfStep (t.exitSet config c) := by
  unfold Tree.exitSet
  split
  · exact .ok _
  · exact (failsOnly_targetOf t c _).bind fun _ => .ok _

namespace Selection

theorem failsOnly_enabled (c : Candidate) : FailsOnly Error.OfStep (enabled scope c) := by
  unfold enabled
  split
  · exact .ok _
  · exact .error (.guard _)

theorem failsOnly_firstEnabled (l : List Candidate) :
    FailsOnly Error.OfStep (firstEnabled scope l) := by
  induction l with
  | nil => exact .ok none
  | cons c rest ih =>
      rw [firstEnabled]
      refine (failsOnly_enabled scope c).bind fun b => ?_
      cases b with
      | true => exact .ok _
      | false => exact ih

theorem failsOnly_propose (name : String) (proposed : List Candidate) (leaf : Nat) :
    FailsOnly Error.OfStep (propose t scope name proposed leaf) := by
  refine (failsOnly_firstEnabled scope _).bind fun found => ?_
  cases found with
  | none => exact .ok _
  | some c =>
      dsimp only
      split <;> exact .ok _

theorem failsOnly_keep (config : NodeSet) (kept : List (Candidate × NodeSet)) (c : Candidate) :
    FailsOnly Error.OfStep (keep t config kept c) := by
  refine (failsOnly_exitSet t config c).bind fun exits => ?_
  dsimp only
  split <;> exact .ok _

theorem failsOnly_select (name : String) (config : NodeSet) :
    FailsOnly Error.OfStep (select t scope name config) :=
  (FailsOnly.foldlM (failsOnly_propose t scope name) _ _).bind fun _ =>
    (FailsOnly.foldlM (failsOnly_keep t config) _ _).bind fun _ => .ok _

end Selection

namespace Step

theorem failsOnly_targetAndDomain (c : Candidate) :
    FailsOnly Error.OfStep (targetAndDomain t c) := by
  unfold targetAndDomain
  split
  · exact .ok _
  · exact (failsOnly_targetOf t c _).bind fun _ => .ok _

theorem failsOnly_microstep (s : Step) (selected : List Candidate) :
    FailsOnly Error.OfStep (s.microstep t selected) :=
  (FailsOnly.mapM (failsOnly_targetAndDomain t) selected).bind fun _ => .ok _

end Step

end

theorem Machine.failsOnly_sound {α : Type} (x : Except TransitionFault α) :
    FailsOnly Error.OfStep (Machine.sound x) := by
  intro e h
  obtain ⟨cause, -, rfl⟩ := Machine.sound_eq_error.mp h
  exact .transition cause

/-! ### Runs -/

namespace Step.Surroundings

variable (e : Surroundings)

theorem failsOnly_offer (config : NodeSet) (names : List String) :
    FailsOnly Error.OfStep (e.offer config names) := by
  induction names with
  | nil => exact .ok _
  | cons name rest ih =>
      rw [offer]
      refine (Selection.failsOnly_select _ _ _ _).bind fun selected => ?_
      split
      · exact ih
      · exact .ok _

theorem failsOnly_next (s : Step) : FailsOnly Error.OfStep (e.next s) := by
  refine (Selection.failsOnly_select _ _ _ _).bind fun selected => ?_
  split
  · exact e.failsOnly_offer _ _
  · exact .ok _

/-- A run fails where one of its steps does, or where the limit is reached. -/
theorem failsOnly_settle (limit budget : Nat) (s : Step) :
    FailsOnly Error.OfRun (e.settle limit budget s) := by
  induction budget using Nat.strong_induction_on generalizing s with
  | _ budget ih =>
      rw [settle.eq_def]
      split
      · exact .ok s
      refine ((e.failsOnly_next s).mono fun _ => .step).bind fun found => ?_
      dsimp only
      split
      · exact .ok _
      cases budget with
      | zero => exact .error (.cycle _ _)
      | succ budget =>
          exact ((failsOnly_microstep _ _ _).mono fun _ => .step).bind fun s' =>
            ih budget (Nat.lt_succ_self _) s'

end Step.Surroundings

namespace Machine

variable (m : Machine)

theorem failsOnly_finish (context : Json) (event : Event) (rest : Step) :
    FailsOnly Error.OfStep (m.finish context event rest) :=
  (failsOnly_sound _).bind fun _ => .ok _

theorem failsOnly_settle (context : Json) (event : Event) (s : Step) :
    FailsOnly Error.OfRun (m.settle context event s) :=
  (Step.Surroundings.failsOnly_settle _ _ _ s).bind fun rest =>
    (m.failsOnly_finish context event rest).mono fun _ => .step

theorem failsOnly_initialState : FailsOnly Error.OfRun m.initialState :=
  m.failsOnly_settle _ _ _

theorem failsOnly_transition (s : State) (event : Event) :
    FailsOnly Error.OfRun (m.transition s event) := by
  unfold transition
  split
  · exact .ok _
  refine ((failsOnly_sound _).mono fun _ => .step).bind fun config => ?_
  refine ((Selection.failsOnly_select _ _ _ _).mono fun _ => .step).bind fun selected => ?_
  split
  · exact .ok _
  · exact ((Step.failsOnly_microstep _ _ _).mono fun _ => .step).bind fun step =>
      m.failsOnly_settle _ _ step

end Machine

end Statechart
