/-
What a machine at rest has left to do.

A macrostep that does not end the machine leaves its loop in one place only: no transition
without an event is enabled and no completion event waits.  A state keeps a value in the
place of the configuration that this was found in.  Where that is legal and has no parallel
node without regions, the value is read as the configuration again, so that the state itself
enables nothing.

That no event waits at the end does not say yet that none has been lost.  A turn takes only
the first event of the queue away, and only to offer it, and a step adds to the queue at its
end; so an event that waits at some turn is offered at a later one (`exists_offers`).
-/
import Mathlib.Logic.Relation
import Statechart.Proofs.Entry.Restored
import Statechart.Proofs.Run.Completion
import Statechart.Proofs.Run.Limit
import Statechart.Proofs.Run.States

namespace Statechart

open Statechart.Tree Outcome

namespace Step.Surroundings

variable {e : Surroundings} {s s' rest : Step} {limit budget : Nat} {name : String}

/-- One turn of the loop leads to the next. -/
def Follows (e : Surroundings) (s s' : Step) : Prop :=
  e.turn s = .drops s' ∨ e.turn s = .steps (.ok s')

/-- The loop passes from one turn to a later one, or stays. -/
def Passes (e : Surroundings) : Step → Step → Prop :=
  Relation.ReflTransGen e.Follows

/-- At its turn the first of the completion events is offered. -/
structure Offers (e : Surroundings) (s : Step) (name : String) : Prop where
  running : s.done = false
  none : e.select s.config e.origin Event.eventless = .ok []
  first : s.raised.head? = some name

/-- A turn is followed by one other at most. -/
theorem follows_rightUnique (e : Surroundings) : Relator.RightUnique e.Follows := by
  rintro s s₁ s₂ (h₁ | h₁) (h₂ | h₂) <;> cases h₁.symm.trans h₂ <;> rfl

/-- Nothing follows where the loop is left. -/
theorem eq_of_passes_of_ends {r : Except Error Step} (hends : e.turn s = .ends r)
    (h : e.Passes s s') : s' = s := by
  rcases Relation.ReflTransGen.cases_head h with rfl | ⟨_, h | h, _⟩
  · rfl
  · cases hends.symm.trans h
  · cases hends.symm.trans h

/-- Every turn passes to the one in which the loop is left. -/
theorem passes_of_passes_of_ends {r : Except Error Step} (hends : e.turn rest = .ends r)
    (hrest : e.Passes s rest) (h : e.Passes s s') : e.Passes s' rest := by
  rcases Relation.ReflTransGen.total_of_right_unique (follows_rightUnique e) h hrest with h | h
  · exact h
  · rw [eq_of_passes_of_ends hends h]
    exact .refl

/-- A macrostep that ends passes to the turn in which it does. -/
theorem passes_of_settle (h : e.settle limit budget s = .ok rest) :
    e.Passes s rest ∧ e.turn rest = .ends (.ok rest) := by
  induction budget, s using turn_induction (e := e) with
  | h budget s ihdrops ihsteps =>
  rw [settle_eq_turn] at h
  have hturns := e.turns s
  cases hturn : e.turn s with
  | ends r =>
      rw [hturn] at h hturns
      dsimp only at h
      subst h
      cases hturns with
      | done _ => exact ⟨.refl, hturn⟩
      | rests _ _ _ => exact ⟨.refl, hturn⟩
  | drops s' =>
      rw [hturn] at h
      obtain ⟨hpasses, hends⟩ := ihdrops s' hturn h
      exact ⟨.head (Or.inl hturn) hpasses, hends⟩
  | steps result =>
      rw [hturn] at h
      cases budget with
      | zero => cases h
      | succ left =>
          obtain ⟨s', rfl, h⟩ := bind_eq_ok.mp h
          obtain ⟨hpasses, hends⟩ := ihsteps left s' rfl hturn h
          exact ⟨.head (Or.inr hturn) hpasses, hends⟩

/-- A machine that is not done rests where nothing is enabled and nothing waits. -/
theorem rests_of_ends (hends : e.turn rest = .ends (.ok rest)) (hrunning : rest.done = false) :
    e.select rest.config e.origin Event.eventless = .ok [] ∧ rest.raised = [] := by
  have hturns := e.turns rest
  rw [hends] at hturns
  cases hturns with
  | done hdone => rw [hrunning] at hdone; cases hdone
  | rests _ hnone hraised => exact ⟨hnone, hraised⟩

/-- A step keeps the events that wait. -/
theorem raised_of_microstep (w : e.tree.WellFormed) {selected : List Candidate}
    (h : s.microstep e.tree selected = .ok s') (hname : name ∈ s.raised) : name ∈ s'.raised := by
  have htakes : Takes e.tree s selected s' (microstepLog e.tree s selected) := ⟨h, rfl⟩
  obtain ⟨moves, hmoves, _, _⟩ := htakes.makes
  exact ((raises_microstep w hmoves h).raised name).mpr (Or.inl hname)

/-- An event that waits at a turn is offered at it, or waits at the next. -/
theorem Follows.offers_or_mem (w : e.tree.WellFormed) (h : e.Follows s s')
    (hname : name ∈ s.raised) : e.Offers s name ∨ name ∈ s'.raised := by
  have hturns := e.turns s
  rcases h with h | h <;> rw [h] at hturns
  · cases hturns with
    | @drops first rest hrunning hnone hraised _ =>
        rw [hraised] at hname
        rcases List.mem_cons.mp hname with rfl | hname
        · exact Or.inl ⟨hrunning, hnone, by rw [hraised]; rfl⟩
        · exact Or.inr hname
  · generalize hresult : (Except.ok s' : Except Error Step) = result at hturns
    cases hturns with
    | moves _ _ _ => exact Or.inr (raised_of_microstep w hresult.symm hname)
    | @answers first rest selected hrunning hnone hraised _ _ =>
        rw [hraised] at hname
        rcases List.mem_cons.mp hname with rfl | hname
        · exact Or.inl ⟨hrunning, hnone, by rw [hraised]; rfl⟩
        · exact Or.inr (raised_of_microstep w hresult.symm (s := { s with raised := rest }) hname)

/-- **An event that waits is offered before the queue is empty.** -/
theorem exists_offers (w : e.tree.WellFormed) (h : e.Passes s rest) (hempty : rest.raised = [])
    (hname : name ∈ s.raised) : ∃ s', e.Passes s s' ∧ e.Offers s' name ∧ e.Passes s' rest := by
  induction h using Relation.ReflTransGen.head_induction_on with
  | refl =>
      rw [hempty] at hname
      exact absurd hname List.not_mem_nil
  | @head s s₁ hfollows hpasses ih =>
      rcases hfollows.offers_or_mem w hname with hoffers | hname
      · exact ⟨s, .refl, hoffers, .head hfollows hpasses⟩
      · obtain ⟨s', hs', hoffers, hrest⟩ := ih hname
        exact ⟨s', .head hfollows hs', hoffers, hrest⟩

end Step.Surroundings

namespace Machine

open Step

variable {m : Machine} {s : State} {first rest : Step}

/-- A state has been reached by a macrostep from its first turn to its last, and enables
nothing by itself. -/
structure AtRest (m : Machine) (s : State) (first rest : Step) : Prop where
  passes : (m.surroundings s.context s.event).Passes first rest
  ends : (m.surroundings s.context s.event).turn rest = .ends (.ok rest)
  written : StateValue.ofConfiguration m.tree rest.config = .ok s.value
  /-- What the value is read as enables no transition without an event. -/
  stable : Legal m.tree rest.config → Entry.Full m.tree rest.config → ∃ config,
    m.configuration s.value = .ok config ∧
      (m.surroundings s.context s.event).select config s.event Event.eventless = .ok []
  /-- No completion event waits, and each that has waited at some turn was offered. -/
  empty : rest.raised = []
  offered : ∀ s₁, (m.surroundings s.context s.event).Passes first s₁ → ∀ name ∈ s₁.raised,
    ∃ s₂, (m.surroundings s.context s.event).Passes s₁ s₂ ∧
      (m.surroundings s.context s.event).Offers s₂ name ∧
      (m.surroundings s.context s.event).Passes s₂ rest

theorem atRest_of_settle (w : m.tree.WellFormed) {context : Json} {event : Event}
    (h : m.settle context event first = .ok s) (hrunning : s.done = false) :
    s.context = context ∧ s.event = event ∧ ∃ rest, AtRest m s first rest := by
  obtain ⟨rest, hsettle, h⟩ := bind_eq_ok.mp h
  obtain ⟨value, hvalue, h⟩ := bind_eq_ok.mp h
  cases h
  obtain ⟨hpasses, hends⟩ := Surroundings.passes_of_settle hsettle
  obtain ⟨hnone, hempty⟩ := Surroundings.rests_of_ends hends hrunning
  have hwritten := sound_eq_ok.mp hvalue
  refine ⟨rfl, rfl, rest, hpasses, hends, hwritten, fun hlegal hfull => ?_, hempty, ?_⟩
  · have hread : value.toConfiguration m.tree = .ok rest.config :=
      StateValue.toConfiguration_of_legal w hlegal hwritten fun n hn hhollow =>
        hfull n hn hhollow.2.1 hhollow.2.2
    exact ⟨rest.config, sound_eq_ok.mpr hread, hnone⟩
  · intro s₁ hs₁ name hname
    have hrest := Surroundings.passes_of_passes_of_ends hends hpasses hs₁
    exact Surroundings.exists_offers w hrest hempty hname

/-- **A machine that has settled is at rest.**  An event that takes a transition and does not
end the machine leads to a state at rest, and so does the start. -/
theorem atRest_of_settled {c : StateConfig} {source : Json}
    (h : Definition.ofConfig c source = .ok m.definition) :
    (∀ (s : State) (event : Event) (s' : State), m.transition s event = .ok s' →
      s'.changed = true → s'.done = false → s'.context = s.context ∧ s'.event = event ∧
        ∃ first rest, m.ownStep s event = .ok (some first) ∧ AtRest m s' first rest) ∧
    ∀ s' : State, m.initialState = .ok s' → s'.done = false →
      s'.context = m.definition.context ∧ s'.event = Event.named Event.initialName ∧
        ∃ rest, AtRest m s' m.initialStep rest := by
  have w : m.tree.WellFormed := (wellFormed_of_ofConfig h).1
  refine ⟨fun s event s' htransition hchanged hrunning => ?_, fun s' => atRest_of_settle w⟩
  rw [transition_eq_ownStep] at htransition
  obtain ⟨own, hown, hfollows⟩ := bind_eq_ok.mp htransition
  cases own with
  | none =>
      cases hfollows
      cases hchanged
  | some first =>
      obtain ⟨hcontext, hevent, rest, hrest⟩ := atRest_of_settle w hfollows hrunning
      exact ⟨hcontext, hevent, first, rest, hown, hrest⟩

/-- What a macrostep settles to is where it is at rest. -/
theorem AtRest.rest_eq {rest' : Step} {limit budget : Nat} (h : AtRest m s first rest)
    (hsettle : (m.surroundings s.context s.event).settle limit budget first = .ok rest') :
    rest' = rest := by
  obtain ⟨hpasses, hends⟩ := Surroundings.passes_of_settle hsettle
  exact Surroundings.eq_of_passes_of_ends h.ends
    (Surroundings.passes_of_passes_of_ends hends hpasses h.passes)

/-- An errand that is done at once leads on to a parallel node, one region of which moves on by
itself. -/
def errandChart : StateConfig :=
  { StateConfig.blank with
    id := some "m"
    initial := some "idle"
    states := [
      ("idle", { StateConfig.blank with
        on := [("GO", [{ CandidateConfig.idle with target := some "errand" }])] }),
      ("errand", { StateConfig.blank with
        initial := some "f"
        onDone := some [{ CandidateConfig.idle with target := some "home" }]
        states := [("f", { StateConfig.blank with type := some .final })] }),
      ("home", { StateConfig.blank with
        type := some .parallel
        states := [
          ("a", { StateConfig.blank with
            initial := some "x"
            states := [
              ("x", { StateConfig.blank with
                on := [("", [{ CandidateConfig.idle with target := some "y" }])] }),
              ("y", StateConfig.blank)] }),
          ("b", StateConfig.blank)] })] }

/-- A completion event waits after the step of the event, and the macrostep comes to rest in a
legal configuration all the same. -/
theorem atRest_of_settled_errandChart : ∃ m s s' first rest,
    Definition.ofConfig errandChart .null = .ok m.definition ∧ m.initialState = .ok s ∧
      m.transition s (Event.named "GO") = .ok s' ∧ AtRest m s' first rest ∧
      "done.state.m.errand" ∈ first.raised ∧ Legal m.tree rest.config ∧
      Entry.Full m.tree rest.config := by
  obtain ⟨d, hd, h⟩ := exists_of_run (x := Definition.ofConfig errandChart .null)
    (p := fun d => (ofDefinition d).initialState.toOption.any fun s =>
      ((ofDefinition d).transition s (Event.named "GO")).toOption.any fun s' =>
        (s'.changed && !s'.done) &&
          ((ofDefinition d).ownStep s (Event.named "GO")).toOption.any fun own =>
            own.any fun first => first.raised.contains "done.state.m.errand" &&
              (((ofDefinition d).surroundings s.context (Event.named "GO")).settle
                defaultLimit defaultLimit first).toOption.any fun rest =>
                  isLegal d.tree rest.config && decide (Entry.Full d.tree rest.config))
    (by decide +kernel)
  obtain ⟨s, hs, h⟩ := exists_of_run h
  obtain ⟨s', hs', h⟩ := exists_of_run h
  obtain ⟨hchanged, h⟩ := Bool.and_eq_true_iff.mp h
  obtain ⟨hchanged, hrunning⟩ := Bool.and_eq_true_iff.mp hchanged
  obtain ⟨hcontext, hevent, first, rest, hfirst, hrest⟩ :=
    (atRest_of_settled hd).1 s _ s' hs' hchanged (Bool.not_eq_true' _ ▸ hrunning)
  rw [hfirst] at h
  obtain ⟨hraised, h⟩ := Bool.and_eq_true_iff.mp h
  rw [← hcontext, ← hevent] at h
  obtain ⟨rest', hsettle, h⟩ := exists_of_run h
  obtain rfl := hrest.rest_eq hsettle
  obtain ⟨hlegal, hfull⟩ := Bool.and_eq_true_iff.mp h
  have w : d.tree.WellFormed := (wellFormed_of_ofConfig hd).1
  exact ⟨ofDefinition d, s, s', first, rest', hd, hs, hs', hrest,
    List.contains_iff_mem.mp hraised, (isLegal_iff w).mp hlegal, of_decide_eq_true hfull⟩

end Machine

end Statechart
