/-
What the limit on the number of steps decides.

A machine gives up when more steps would follow an event than its limit allows.  Nothing
else that it does depends on the limit: `Begins` counts the steps that the loop begins when
nothing stops it, `stepCount` is their number, which may be infinite, and a limit cuts the
loop off exactly when it is below that number.  All limits that are not have one result.

A run that is given up must not be taken for one that fails on its own, so that it has to
be known that selecting and stepping never fail with the error of the limit (`uncut_of_step`).
-/
import Mathlib.Data.ENat.Lattice
import Mathlib.Order.CompletePartialOrder
import Statechart.Machine
import Statechart.Proofs.Run.Loop
import Statechart.Proofs.Step.Failure

namespace Statechart

open Outcome

/-! ### Failures that are not due to the limit -/

/-- A result that is not the failure of a run that is given up. -/
def Uncut {α : Type} (x : Except Error α) : Prop :=
  ∀ event n, x ≠ .error (.transientCycle event n)

namespace Uncut

variable {α β : Type}

theorem ok (a : α) : Uncut (.ok a : Except Error α) :=
  fun _ _ h => by cases h

/-- An error is no more the limit's where it is passed on. -/
theorem of_error {x : Except Error α} {err : Error} (hx : Uncut x) (h : x = .error err) :
    Uncut (.error err : Except Error β) := by
  intro event n h'
  cases h'
  exact hx event n h

end Uncut

/-- Where a step fails, the limit has not been reached. -/
theorem uncut_of_step {α : Type} {x : Except Error α} (h : FailsOnly Error.OfStep x) :
    Uncut x := by
  intro event n hx
  cases h _ hx

/-! ### How many steps a macrostep has -/

namespace Step.Surroundings

variable {e : Surroundings} {s s' : Step} {limit limit' budget budget' : Nat}

/-- A turn never fails with the error of the limit. -/
theorem uncut_of_ends {r : Except Error Step} (h : e.turn s = .ends r) : Uncut r := by
  have hturns := e.turns s
  rw [h] at hturns
  cases hturns with
  | done _ => exact .ok s
  | fault _ hselect => exact .of_error (uncut_of_step (Selection.failsOnly_select _ _ _ _)) hselect
  | rests _ _ _ => exact .ok s
  | faultOffered _ _ _ hselect => exact .of_error (uncut_of_step (Selection.failsOnly_select _ _ _ _)) hselect

theorem uncut_of_steps {r : Except Error Step} (h : e.turn s = .steps r) : Uncut r := by
  have hturns := e.turns s
  rw [h] at hturns
  cases hturns with
  | moves _ _ _ => exact uncut_of_step (failsOnly_microstep e.tree _ _)
  | answers _ _ _ _ _ => exact uncut_of_step (failsOnly_microstep e.tree _ _)

/-- The loop, not being stopped, begins at least so many steps.  A step that fails has been
begun. -/
inductive Begins (e : Surroundings) : Nat → Step → Prop
  | zero {s : Step} : Begins e 0 s
  | drops {n : Nat} {s s' : Step} (turn : e.turn s = .drops s') (begins : Begins e n s') :
      Begins e n s
  | fails {s : Step} {err : Error} (turn : e.turn s = .steps (.error err)) : Begins e 1 s
  | steps {n : Nat} {s s' : Step} (turn : e.turn s = .steps (.ok s')) (begins : Begins e n s') :
      Begins e (n + 1) s

theorem Begins.of_le {m n : Nat} (h : Begins e n s) (hle : m ≤ n) : Begins e m s := by
  induction h generalizing m with
  | zero =>
      obtain rfl := Nat.le_zero.mp hle
      exact .zero
  | drops hturn _ ih => exact .drops hturn (ih hle)
  | fails hturn =>
      cases m with
      | zero => exact .zero
      | succ m =>
          obtain rfl : m = 0 := by omega
          exact .fails hturn
  | steps hturn _ ih =>
      cases m with
      | zero => exact .zero
      | succ m => exact .steps hturn (ih (by omega))

/-- What a step begins, by its first turn. -/
theorem begins_succ_iff {n : Nat} : e.Begins (n + 1) s ↔
    match e.turn s with
    | .ends _ => False
    | .drops s' => e.Begins (n + 1) s'
    | .steps (.ok s') => e.Begins n s'
    | .steps (.error _) => n = 0 := by
  constructor
  · intro h
    cases h with
    | drops hturn h => rw [hturn]; exact h
    | fails hturn => rw [hturn]
    | steps hturn h => rw [hturn]; exact h
  · intro h
    split at h
    · exact h.elim
    · rename_i hturn
      exact .drops hturn h
    · rename_i hturn
      exact .steps hturn h
    · rename_i hturn
      subst h
      exact .fails hturn

/-- How many steps the loop begins when nothing stops it. -/
noncomputable def stepCount (e : Surroundings) (s : Step) : ℕ∞ :=
  ⨆ n : { n : Nat // e.Begins n s }, (n.1 : ℕ∞)

theorem lt_stepCount_iff {n : Nat} : (n : ℕ∞) < e.stepCount s ↔ e.Begins (n + 1) s := by
  rw [stepCount, lt_iSup_iff]
  constructor
  · rintro ⟨⟨k, hk⟩, hlt⟩
    exact hk.of_le (Nat.cast_lt.mp hlt)
  · intro h
    exact ⟨⟨n + 1, h⟩, Nat.cast_lt.mpr (Nat.lt_succ_self n)⟩

/-- **A macrostep is given up exactly when it begins more steps than it may take.** -/
theorem settle_eq_cycle_iff {event : String} {n : Nat} :
    e.settle limit budget s = .error (.transientCycle event n) ↔
      e.Begins (budget + 1) s ∧ event = e.origin.name ∧ n = limit := by
  have hgiven : (.error (.transientCycle e.origin.name limit) : Except Error Step) =
      .error (.transientCycle event n) ↔ event = e.origin.name ∧ n = limit := by
    constructor
    · intro h
      cases h
      exact ⟨rfl, rfl⟩
    · rintro ⟨rfl, rfl⟩
      rfl
  induction budget, s using turn_induction (e := e) with
  | h budget s ihdrops ihsteps =>
  rw [settle_eq_turn, begins_succ_iff]
  cases hturn : e.turn s with
  | ends r => exact iff_of_false (uncut_of_ends hturn event n) fun h => h.1
  | drops s' => exact ihdrops s' hturn
  | steps result =>
  cases result with
  | error err =>
      cases budget with
      | zero => exact hgiven.trans (and_iff_right rfl).symm
      | succ left =>
          exact iff_of_false (uncut_of_steps hturn event n) fun h => absurd h.1 (Nat.succ_ne_zero _)
  | ok s' =>
      cases budget with
      | zero => exact hgiven.trans (and_iff_right .zero).symm
      | succ left => exact ihsteps left s' rfl hturn

/-- A macrostep that is not given up does not depend on how much more it might take. -/
theorem settle_congr (h : ¬ e.Begins (budget + 1) s) (hle : budget ≤ budget') :
    e.settle limit budget s = e.settle limit' budget' s := by
  induction budget, s using turn_induction (e := e) generalizing budget' with
  | h budget s ihdrops ihsteps =>
  rw [begins_succ_iff] at h
  rw [settle_eq_turn, settle_eq_turn limit' budget']
  cases hturn : e.turn s with
  | ends r => rfl
  | drops s' =>
      rw [hturn] at h
      exact ihdrops s' hturn h hle
  | steps result =>
  rw [hturn] at h
  -- the limit allows the step, which would be one too many otherwise
  have hallowed : budget ≠ 0 := by
    rintro rfl
    cases result with
    | error err => exact h rfl
    | ok s' => exact h .zero
  obtain ⟨left, rfl⟩ := Nat.exists_eq_succ_of_ne_zero hallowed
  obtain ⟨left', rfl⟩ : ∃ left', budget' = left' + 1 := ⟨budget' - 1, by omega⟩
  cases result with
  | error err => rfl
  | ok s' => exact ihsteps left s' rfl hturn h (by omega)

end Step.Surroundings

/-! ### What is cut off -/

/-- A run by its limit, when the limit only cuts it off: it is given up under a limit below
`count`, and all other limits have one result, which is not that. -/
structure CutOff {α : Type} (run : Nat → Except Error α) (name : String) (count : ℕ∞) : Prop where
  givenUp : ∀ (limit : Nat) (event : String) (n : Nat),
    run limit = .error (.transientCycle event n) ↔ (limit : ℕ∞) < count ∧ event = name ∧ n = limit
  same : ∀ limit limit' : Nat, count ≤ limit → count ≤ limit' → run limit = run limit'

namespace CutOff

variable {α β : Type} {name : String}

/-- What does not depend on a limit is never cut off. -/
theorem const {x : Except Error α} (h : Uncut x) : CutOff (fun _ => x) name 0 where
  givenUp _ event n := iff_of_false (h event n) fun h => not_lt_zero h.1
  same _ _ _ _ := rfl

/-- What is done with a result afterwards does not move the cut. -/
theorem bind {run : Nat → Except Error α} {count : ℕ∞} {f : α → Except Error β}
    (h : CutOff run name count) (hf : ∀ a, Uncut (f a)) :
    CutOff (fun limit => run limit >>= f) name count where
  givenUp limit event n := by
    rw [← h.givenUp, bind_eq_error]
    constructor
    · rintro (h | ⟨a, _, h⟩)
      · exact h
      · exact absurd h (hf a event n)
    · exact Or.inl
  same limit limit' hle hle' := by
    rw [h.same limit limit' hle hle']

end CutOff

theorem Step.Surroundings.cutOff_settle (e : Surroundings) (s : Step) :
    CutOff (fun limit => e.settle limit limit s) e.origin.name (e.stepCount s) where
  givenUp limit event n := by rw [settle_eq_cycle_iff, lt_stepCount_iff]
  same limit limit' hle hle' := by
    rcases Nat.le_total limit limit' with h | h
    · exact settle_congr (fun hbegins => not_lt_of_ge hle (lt_stepCount_iff.mpr hbegins)) h
    · exact (settle_congr (fun hbegins => not_lt_of_ge hle' (lt_stepCount_iff.mpr hbegins)) h).symm

namespace Machine

/-- The machine with another limit. -/
def withLimit (m : Machine) (limit : Nat) : Machine := { m with transientLimit := limit }

/-- The step that an event takes by itself, if it takes one. -/
def ownStep (m : Machine) (s : State) (event : Event) : Except Error (Option Step) :=
  if s.done then .ok none
  else do
    let config ← m.configuration s.value
    let selected ← (m.surroundings s.context event).select config event event.name
    if selected.isEmpty then return none
    else return some (← (Step.start config s.history).microstep m.tree selected)

/-- How many steps follow the one that an event takes. -/
noncomputable def stepCount (m : Machine) (s : State) (event : Event) : ℕ∞ :=
  match m.ownStep s event with
  | .ok (some step) => (m.surroundings s.context event).stepCount step
  | _ => 0

/-- How many steps follow on the entry of the root. -/
noncomputable def initialStepCount (m : Machine) : ℕ∞ :=
  (m.surroundings m.definition.context (Event.named Event.initialName)).stepCount m.initialStep

variable (m : Machine) (s : State) (event : Event)

theorem failsOnly_ownStep : FailsOnly Error.OfStep (m.ownStep s event) := by
  unfold ownStep
  split
  · exact .ok none
  refine (failsOnly_sound _).bind fun config =>
    (Selection.failsOnly_select _ _ _ _).bind fun selected => ?_
  split
  · exact .ok none
  · exact (Step.failsOnly_microstep _ _ _).bind fun _ => .ok _

/-- A transition is the step of the event and what follows it. -/
theorem transition_eq_ownStep : m.transition s event = m.ownStep s event >>= fun own =>
    match own with
    | none => .ok (s.unchanged event)
    | some step => m.settle s.context event step := by
  unfold transition ownStep
  split
  · rfl
  simp only [bind_assoc]
  congr
  funext config
  congr
  funext selected
  split
  · rfl
  · simp only [bind_assoc]
    congr

theorem cutOff_settle (context : Json) (step : Step) :
    CutOff (fun limit => (m.withLimit limit).settle context event step) event.name
      ((m.surroundings context event).stepCount step) :=
  have hsettle := (m.surroundings context event).cutOff_settle step
  hsettle.bind fun rest => uncut_of_step (m.failsOnly_finish context event rest)

theorem cutOff_transition : CutOff (fun limit => (m.withLimit limit).transition s event)
    event.name (m.stepCount s event) := by
  have heq (limit : Nat) : (m.withLimit limit).transition s event =
      m.ownStep s event >>= fun own =>
        match own with
        | none => .ok (s.unchanged event)
        | some step => (m.withLimit limit).settle s.context event step :=
    transition_eq_ownStep (m.withLimit limit) s event
  simp only [heq, stepCount]
  cases hown : m.ownStep s event with
  | error err => exact .const ((uncut_of_step (failsOnly_ownStep m s event)).of_error hown)
  | ok own =>
      cases own with
      | none => exact .const (.ok _)
      | some step => exact m.cutOff_settle event s.context step

/-- **The limit only cuts a machine off.**  The loop of every macrostep ends, whatever it is
that the steps raise and that the turns drop, and `settle` is what it comes to.  On an event
a machine is given up exactly under the limits below the number of steps that would follow,
and under all others it answers alike; and so at the start. -/
theorem limit_cuts_off :
    (∀ (e : Step.Surroundings) (limit : Nat) (s : Step) (r : Except Error Step),
      e.Loops limit 0 s r ↔ e.settle limit limit s = r) ∧
    (∀ (m : Machine) (s : State) (event : Event),
      CutOff (fun limit => (m.withLimit limit).transition s event) event.name
        (m.stepCount s event)) ∧
    ∀ m : Machine, CutOff (fun limit => (m.withLimit limit).initialState) Event.initialName
      m.initialStepCount :=
  ⟨fun _ _ _ _ => Step.Surroundings.loops_iff, cutOff_transition,
    fun m => m.cutOff_settle (Event.named Event.initialName) m.definition.context m.initialStep⟩

end Machine

end Statechart
