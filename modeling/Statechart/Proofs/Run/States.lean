/-
The states that a machine can come to.

A state keeps a configuration only as the value that was written of it.  What holds of
every reachable state is `Standing`: its value was written of a coherent configuration,
and its history was recorded from such configurations.  The configuration need not be
legal, but what the value shows is, so that every macrostep starts from a legal one.

`Leads` takes a transition apart once: the event is ignored, or the macrostep settles and
its configuration is written.  Everything about transitions is a case analysis of it.
-/
import Statechart.Proofs.Run.Moments
import Statechart.Proofs.Value.Reading
import Statechart.Session

namespace Statechart.Machine

open Statechart.Tree Outcome Step

variable {m : Machine} {s s' : State} {e : Event} {log : List Moment}

/-- A definition that loads has a well-formed tree under its own name. -/
theorem wellFormed_of_ofConfig {d : Definition} {c : StateConfig} {source : Json}
    (h : Definition.ofConfig c source = .ok d) :
    d.tree.WellFormed ∧ (d.tree.node Tree.root).id = d.name := by
  obtain ⟨context, _, h⟩ := bind_eq_ok.mp h
  obtain ⟨tree, htree, h⟩ := bind_eq_ok.mp h
  cases h
  exact ⟨wellFormed_of_build htree, root_id_of_build htree⟩

/-! ### Logs -/

/-- What happens until the machine is at rest for the first time. -/
def initialLog (m : Machine) : List Moment :=
  (Entry.withDefaults m.tree SortedSet.empty Tree.root).toList.map .entered ++
    (m.surroundings m.definition.context (Event.named Event.initialName)).settleLog
      m.transientLimit m.initialStep

/-- What happens when an event is delivered. -/
def transitionLog (m : Machine) (s : State) (e : Event) : List Moment :=
  if s.done then []
  else
    match m.configuration s.value with
    | .error _ => []
    | .ok config =>
      match (m.surroundings s.context e).select config e e.name with
      | .error _ => []
      | .ok selected =>
        if selected.isEmpty then []
        else
          match (Step.start config s.history).microstep m.tree selected with
          | .error _ => []
          | .ok step => microstepLog m.tree (Step.start config s.history) selected ++
              (m.surroundings s.context e).settleLog m.transientLimit step

/-! ### Transitions -/

/-- The steps that an event leads to, up to where they come to rest. -/
structure Steps (m : Machine) (s : State) (e : Event) (config : NodeSet) (step rest : Step)
    (selected : List Candidate) : Prop where
  running : s.done = false
  reads : m.configuration s.value = .ok config
  selects : (m.surroundings s.context e).select config e e.name = .ok selected
  some : selected ≠ []
  steps : (Step.start config s.history).microstep m.tree selected = .ok step
  settle : (m.surroundings s.context e).settle m.transientLimit m.transientLimit step = .ok rest

/-- What an event leads to, with the log of what happens. -/
inductive Leads (m : Machine) (s : State) (e : Event) : State → List Moment → Prop
  | ignored : Leads m s e (s.unchanged e) []
  | steps {config : NodeSet} {step rest : Step} {selected : List Candidate} {s' : State}
      (steps : Steps m s e config step rest selected)
      (finish : m.finish s.context e rest = .ok s') :
      Leads m s e s' (microstepLog m.tree (Step.start config s.history) selected ++
        (m.surroundings s.context e).settleLog m.transientLimit step)

theorem leads_of_transition (h : m.transition s e = .ok s') :
    Leads m s e s' (m.transitionLog s e) := by
  unfold transition at h
  unfold transitionLog
  split at h
  · rename_i hdone
    cases h
    rw [if_pos hdone]
    exact .ignored
  rename_i hdone
  rw [if_neg hdone]
  obtain ⟨config, hconfig, h⟩ := bind_eq_ok.mp h
  obtain ⟨selected, hselect, h⟩ := bind_eq_ok.mp h
  rw [hconfig]
  dsimp only
  rw [hselect]
  dsimp only
  split at h
  · rename_i hempty
    cases h
    rw [if_pos hempty]
    exact .ignored
  rename_i hempty
  obtain ⟨step, hstep, h⟩ := bind_eq_ok.mp h
  obtain ⟨rest, hrest, h⟩ := bind_eq_ok.mp h
  rw [if_neg hempty, hstep]
  exact .steps ⟨Bool.not_eq_true _ ▸ hdone, hconfig, hselect,
    fun h => hempty (List.isEmpty_iff.mpr h), hstep, hrest⟩ h

/-! ### What every state is like -/

/-- What holds of every state that a machine comes to. -/
structure Standing (m : Machine) (s : State) : Prop where
  /-- The value was written of a coherent configuration. -/
  value : ∃ C, Coherent m.tree C ∧ StateValue.ofConfiguration m.tree C = .ok s.value
  /-- The history was recorded from coherent configurations. -/
  history : MadeFrom m.tree (Coherent m.tree) s.history

/-- A value that can be read is read as what it shows. -/
theorem shown_of_configuration (w : m.tree.WellFormed) {v : StateValue} {C config : NodeSet}
    (hv : StateValue.ofConfiguration m.tree C = .ok v) (h : m.configuration v = .ok config) :
    (∀ i, i ∈ config ↔ Shows m.tree C Tree.root i) ∧ Legal m.tree config := by
  have hread := sound_eq_ok.mp h
  have hhollow : ∀ n, Shows m.tree C Tree.root n → ¬ Hollow m.tree n := by
    intro n hn hhollow
    obtain ⟨_, _, _, hf⟩ := StateValue.toConfiguration_of_hollow w hv hn hhollow
    rw [hread] at hf
    cases hf
  obtain ⟨C', hC', hshown⟩ := StateValue.toConfiguration_of_shown w hv hhollow
  rw [hread] at hC'
  cases hC'
  exact hshown

/-- The configuration that a macrostep starts from is legal. -/
theorem legal_of_configuration (w : m.tree.WellFormed) (hs : Standing m s) {config : NodeSet}
    (h : m.configuration s.value = .ok config) : Legal m.tree config := by
  obtain ⟨C, _, hv⟩ := hs.value
  exact (shown_of_configuration w hv h).2

/-- A macrostep starts from the configuration that was written, if that is legal. -/
theorem configuration_eq_of_legal (w : m.tree.WellFormed) {v : StateValue} {C config : NodeSet}
    (hC : Legal m.tree C) (hv : StateValue.ofConfiguration m.tree C = .ok v)
    (h : m.configuration v = .ok config) : config = C :=
  SortedSet.ext fun i => ((shown_of_configuration w hv h).1 i).trans (shows_iff_mem w hC)

theorem orderly_start (w : m.tree.WellFormed) (hs : Standing m s) {config : NodeSet}
    (h : m.configuration s.value = .ok config) :
    Orderly m.tree (Step.start config s.history) :=
  ⟨(legal_of_configuration w hs h).toCoherent, hs.history⟩

/-- What a finished macrostep leaves in the state. -/
theorem finish_eq_ok {context : Json} {rest : Step} (h : m.finish context e rest = .ok s') :
    StateValue.ofConfiguration m.tree rest.config = .ok s'.value ∧ s'.history = rest.history ∧
      s'.timers = rest.timers := by
  obtain ⟨value, hvalue, h⟩ := bind_eq_ok.mp h
  cases h
  exact ⟨sound_eq_ok.mp hvalue, rfl, rfl⟩

namespace Steps

variable {config : NodeSet} {step rest : Step} {selected : List Candidate}

theorem takes (h : Steps m s e config step rest selected) :
    Takes m.tree (Step.start config s.history) selected step
      (microstepLog m.tree (Step.start config s.history) selected) := ⟨h.steps, rfl⟩

theorem settles (h : Steps m s e config step rest selected) :
    (m.surroundings s.context e).Settles step rest
      ((m.surroundings s.context e).settleLog m.transientLimit step) :=
  Surroundings.settles_of_settle h.settle

theorem are_selected (w : m.tree.WellFormed) (hs : Standing m s)
    (h : Steps m s e config step rest selected) :
    Selection.Selected m.tree config e.name selected :=
  Selection.selected_of_select w (legal_of_configuration w hs h.reads).toCoherent h.selects

theorem orderly_step (w : m.tree.WellFormed) (hs : Standing m s)
    (h : Steps m s e config step rest selected) : Orderly m.tree step :=
  (orderly_start w hs h.reads).takes w (h.are_selected w hs) h.takes

theorem orderly (w : m.tree.WellFormed) (hs : Standing m s)
    (h : Steps m s e config step rest selected) : Orderly m.tree rest :=
  h.settles.orderly w (h.orderly_step w hs)

theorem tame (w : m.tree.WellFormed) (hs : Standing m s) (htidy : Tidy m.tree)
    (h : Steps m s e config step rest selected) :
    TameLog m.tree (microstepLog m.tree (Step.start config s.history) selected ++
      (m.surroundings s.context e).settleLog m.transientLimit step) :=
  tameLog_append.mpr ⟨h.takes.tame htidy (h.are_selected w hs),
    h.settles.tame w htidy (h.orderly_step w hs)⟩

/-- The steps that tame moves make end in a legal configuration. -/
theorem legal (w : m.tree.WellFormed) (hs : Standing m s)
    (h : Steps m s e config step rest selected)
    (htame : TameLog m.tree (microstepLog m.tree (Step.start config s.history) selected ++
      (m.surroundings s.context e).settleLog m.transientLimit step)) :
    Legal m.tree rest.config := by
  obtain ⟨htakes, hsettles⟩ := tameLog_append.mp htame
  have hlegal : Legal m.tree step.config :=
    h.takes.legal w (orderly_start w hs h.reads) (h.are_selected w hs) htakes
      (legal_of_configuration w hs h.reads)
  exact h.settles.legal w (h.orderly_step w hs) hsettles hlegal

end Steps

theorem standing_of_finish {context : Json} {rest : Step} (hrest : Orderly m.tree rest)
    (h : m.finish context e rest = .ok s') : Standing m s' := by
  obtain ⟨hvalue, hhistory, _⟩ := finish_eq_ok h
  refine ⟨⟨rest.config, hrest.config, hvalue⟩, ?_⟩
  rw [hhistory]
  exact hrest.history

theorem Leads.standing (w : m.tree.WellFormed) (hs : Standing m s) (h : Leads m s e s' log) :
    Standing m s' := by
  cases h with
  | ignored => exact ⟨hs.value, hs.history⟩
  | steps hsteps hfinish => exact standing_of_finish (hsteps.orderly w hs) hfinish

theorem Leads.timers (h : Leads m s e s' log) : s'.timers = log.flatMap (commands m.tree) := by
  cases h with
  | ignored => rfl
  | steps hsteps hfinish =>
      obtain ⟨_, _, htimers⟩ := finish_eq_ok hfinish
      rw [htimers, hsteps.settles.timers, hsteps.takes.timers, List.flatMap_append]
      rfl

theorem Leads.tame (w : m.tree.WellFormed) (hs : Standing m s) (htidy : Tidy m.tree)
    (h : Leads m s e s' log) : TameLog m.tree log := by
  cases h with
  | ignored => exact tameLog_nil
  | steps hsteps _ => exact hsteps.tame w hs htidy

/-! ### The first state -/

theorem orderly_initialStep (w : m.tree.WellFormed) : Orderly m.tree m.initialStep :=
  ⟨(legal_initialStep w).toCoherent, by rw [history_initialStep]; exact .empty⟩

/-- What happens at first is the first change and what follows it. -/
theorem initialLog_eq : m.initialLog = (firstChange m.tree).moments [] ++
    (m.surroundings m.definition.context (Event.named Event.initialName)).settleLog
      m.transientLimit m.initialStep := rfl

theorem initialState_eq_ok (h : m.initialState = .ok s) : ∃ rest,
    (m.surroundings m.definition.context (Event.named Event.initialName)).Settles m.initialStep rest
      ((m.surroundings m.definition.context (Event.named Event.initialName)).settleLog
        m.transientLimit m.initialStep) ∧
      m.finish m.definition.context (Event.named Event.initialName) rest = .ok s := by
  obtain ⟨rest, hrest, h⟩ := bind_eq_ok.mp h
  exact ⟨rest, Surroundings.settles_of_settle hrest, h⟩

theorem standing_initialState (w : m.tree.WellFormed) (h : m.initialState = .ok s) :
    Standing m s := by
  obtain ⟨rest, hsettles, hfinish⟩ := initialState_eq_ok h
  exact standing_of_finish (hsettles.orderly w (orderly_initialStep w)) hfinish

/-- The timers of the first state are those of its log. -/
theorem timers_initialState (h : m.initialState = .ok s) :
    s.timers = m.initialLog.flatMap (commands m.tree) := by
  obtain ⟨rest, hsettles, hfinish⟩ := initialState_eq_ok h
  rw [(finish_eq_ok hfinish).2.2, hsettles.timers, makes_initialStep.timers_eq [], initialLog_eq,
    List.flatMap_append]
  rfl

theorem tame_initialLog (w : m.tree.WellFormed) (htidy : Tidy m.tree) (h : m.initialState = .ok s) :
    TameLog m.tree m.initialLog := by
  obtain ⟨rest, hsettles, _⟩ := initialState_eq_ok h
  refine tameLog_append.mpr ⟨fun x D hmoved => ?_,
    hsettles.tame w htidy (orderly_initialStep w)⟩
  obtain ⟨_, _, h⟩ := List.mem_map.mp hmoved
  cases h

/-! ### Reachable states -/

/-- The states that a machine comes to: by events, those of timers among them, and by
updates of the context in between. -/
inductive Reachable (m : Machine) : State → Prop
  | initial {s : State} (start : m.initialState = .ok s) : Reachable m s
  | event {s s' : State} {e : Event} (reachable : Reachable m s)
      (transition : m.transition s e = .ok s') : Reachable m s'
  | context {s : State} (patch : List (String × Json)) (reachable : Reachable m s) :
      Reachable m { s with context := Session.merged s.context patch }

theorem Reachable.standing (w : m.tree.WellFormed) (h : Reachable m s) : Standing m s := by
  induction h with
  | initial hstart => exact standing_initialState w hstart
  | event _ htransition ih => exact (leads_of_transition htransition).standing w ih
  | context _ _ ih => exact ⟨ih.value, ih.history⟩

end Statechart.Machine
