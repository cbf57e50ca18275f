/-
When a machine that has been loaded fails with a fault of its transitions.

A transition can fail in five places.  Two of them never do: the targets that a step
looks up were checked when the definition was loaded.  Two fail for other reasons, a
guard or a macrostep that does not end.  What is left is the value of a state, which is
read at the start and written at the end.

Reading fails when the value shows a parallel node without regions (`Hollow`).  Writing
fails when the configuration that the steps come to rest in is `Torn`: some parallel node
has lost a region that is a compound node, so that the value would have to show a node
that is not active.  Only a transition whose domain is a parallel node tears a
configuration, because the domain is left without the regions that nothing is entered in.
-/
import Statechart.Proofs.Run.States

namespace Statechart

open Statechart.Tree Outcome Step

/-- A configuration without a value: a compound node that has to be shown is not active. -/
def Torn (t : Tree) (C : NodeSet) : Prop :=
  ∃ n, Shows t C Tree.root n ∧ t.kind n = .compound ∧ n ∉ C

section

variable {t : Tree} {C : NodeSet}

theorem torn_iff (w : t.WellFormed) (hC : Coherent t C) :
    Torn t C ↔ ∃ f, StateValue.ofConfiguration t C = .error f := by
  have hok : (∃ v, StateValue.ofConfiguration t C = .ok v) ↔
      ∀ n, Shows t C Tree.root n → t.kind n = .compound → ∃ c ∈ t.regions n, c ∈ C :=
    StateValue.exists_ofNode_iff w
  constructor
  · rintro ⟨n, hn, hkind, hactive⟩
    cases hv : StateValue.ofConfiguration t C with
    | error f => exact ⟨f, rfl⟩
    | ok v =>
        obtain ⟨c, hc, hcC⟩ := hok.mp ⟨v, hv⟩ n hn hkind
        exact absurd (hC.parent c hcC n (w.mem_regions.mp hc).1) hactive
  · rintro ⟨f, hf⟩
    by_contra htorn
    have hall : ∀ n, Shows t C Tree.root n → t.kind n = .compound → ∃ c ∈ t.regions n, c ∈ C := by
      intro n hn hkind
      have hactive : n ∈ C := by
        by_contra hactive
        exact htorn ⟨n, hn, hkind, hactive⟩
      obtain ⟨c, ⟨hc, hcC⟩, _⟩ := hC.child n hactive hkind
      exact ⟨c, hc, hcC⟩
    obtain ⟨v, hv⟩ := hok.mpr hall
    rw [hf] at hv
    cases hv

theorem Legal.not_torn (w : t.WellFormed) (hC : Legal t C) : ¬ Torn t C := by
  rintro ⟨n, hn, _, hactive⟩
  exact hactive ((shows_iff_mem w hC).mp hn)

end

namespace Machine

variable {m : Machine} {s : State} {e : Event}

theorem finish_eq_error {context : Json} {rest : Step} {err : Error} :
    m.finish context e rest = .error err ↔
      ∃ f, StateValue.ofConfiguration m.tree rest.config = .error f ∧ err = .transition f := by
  unfold finish
  constructor
  · intro h
    rcases bind_eq_error.mp h with h | ⟨_, _, h⟩
    · exact sound_eq_error.mp h
    · cases h
  · intro h
    exact bind_eq_error.mpr (Or.inl (sound_eq_error.mpr h))

/-- The value of a state cannot be read exactly when it shows a parallel node without
regions. -/
theorem configuration_fault_iff (w : m.tree.WellFormed)
    (hid : (m.tree.node Tree.root).id = m.id) (hs : Standing m s) :
    (∃ f, m.configuration s.value = .error (.transition f)) ↔
      ∃ i, Hollow m.tree i ∧ (m.tree.node i).id ∈ s.activeIds m.id := by
  obtain ⟨C, _, hv⟩ := hs.value
  have hids := StateValue.mem_activeIds w hv
  rw [hid] at hids
  constructor
  · rintro ⟨f, hf⟩
    by_contra hnone
    have hhollow : ∀ n, Shows m.tree C Tree.root n → ¬ Hollow m.tree n := by
      intro n hn hhollow
      exact hnone ⟨n, hhollow, (hids _).mpr ⟨n, hn, hhollow.ends, rfl⟩⟩
    obtain ⟨C', hC', _⟩ := StateValue.toConfiguration_of_shown w hv hhollow
    obtain ⟨_, hread, _⟩ := sound_eq_error.mp hf
    rw [hC'] at hread
    cases hread
  · rintro ⟨i, hhollow, hactive⟩
    obtain ⟨n, hn, _, hnid⟩ := (hids _).mp hactive
    obtain rfl := w.eq_of_id (hn.lt_size w) (lt_size_of_parallel hhollow.2.1) hnid
    obtain ⟨_, _, _, hf⟩ := StateValue.toConfiguration_of_hollow w hv hn hhollow
    exact ⟨_, sound_eq_error.mpr ⟨_, hf, rfl⟩⟩

/-- How a transition fails. -/
theorem transition_error_cases (w : m.tree.WellFormed) (hs : Standing m s) {err : Error}
    (h : m.transition s e = .error err) :
    (∃ f, err = .guard f) ∨ (∃ event n, err = .transientCycle event n) ∨
      (s.done = false ∧ m.configuration s.value = .error err) ∨
      ∃ config step rest selected, Steps m s e config step rest selected ∧
        m.finish s.context e rest = .error err := by
  unfold transition at h
  split at h
  · cases h
  rename_i hdone
  have hrunning : s.done = false := Bool.not_eq_true _ ▸ hdone
  rcases bind_eq_error.mp h with h | ⟨config, hconfig, h⟩
  · exact Or.inr (Or.inr (Or.inl ⟨hrunning, h⟩))
  rcases bind_eq_error.mp h with h | ⟨selected, hselect, h⟩
  · exact Or.inl (Selection.select_error w h)
  split at h
  · cases h
  rename_i hempty
  have horderly := orderly_start w hs hconfig
  have hselected := Selection.selected_of_select w horderly.config hselect
  rcases bind_eq_error.mp h with h | ⟨step, hstep, h⟩
  · obtain ⟨_, _, _, _, hstep, _⟩ :=
      exists_microstep w horderly.config horderly.history hselected
    rw [hstep] at h
    cases h
  rcases bind_eq_error.mp h with h | ⟨rest, hrest, h⟩
  · have horderly' : Orderly m.tree step := horderly.takes w hselected ⟨hstep, rfl⟩
    rcases Surroundings.settle_error (e := m.surroundings s.context e) w horderly' h with h | h
    · exact Or.inl h
    · exact Or.inr (Or.inl h)
  · exact Or.inr (Or.inr (Or.inr ⟨config, step, rest, selected, ⟨hrunning, hconfig, hselect,
      fun h => hempty (List.isEmpty_iff.mpr h), hstep, hrest⟩, h⟩))

theorem Steps.transition_eq {config : NodeSet} {step rest : Step} {selected : List Candidate}
    (h : Steps m s e config step rest selected) :
    m.transition s e = m.finish s.context e rest := by
  have hempty : selected.isEmpty = false := by
    rw [← Bool.not_eq_true, List.isEmpty_iff]
    exact h.some
  unfold transition
  rw [if_neg (by rw [h.running]; exact Bool.false_ne_true)]
  have hsettle : m.settle s.context e step = m.finish s.context e rest := by
    unfold Machine.settle
    rw [h.settle]
    rfl
  simp only [h.reads, h.selects, h.steps, bind, Except.bind, hempty, Bool.false_eq_true, if_false]
  exact hsettle

/-- A transition runs into a fault: the value of its state cannot be read, or that of the
configuration in which its steps come to rest cannot be written. -/
def Faulty (m : Machine) (s : State) (e : Event) : Prop :=
  s.done = false ∧ ((∃ i, Hollow m.tree i ∧ (m.tree.node i).id ∈ s.activeIds m.id) ∨
    ∃ config step rest selected, Steps m s e config step rest selected ∧ Torn m.tree rest.config)

theorem transition_fault_iff (w : m.tree.WellFormed) (hid : (m.tree.node Tree.root).id = m.id)
    (hs : Standing m s) : (∃ f, m.transition s e = .error (.transition f)) ↔ Faulty m s e := by
  constructor
  · rintro ⟨f, h⟩
    rcases transition_error_cases w hs h with ⟨_, h⟩ | ⟨_, _, h⟩ | ⟨hdone, h⟩ |
      ⟨config, step, rest, selected, hsteps, h⟩
    · cases h
    · cases h
    · exact ⟨hdone, Or.inl ((configuration_fault_iff w hid hs).mp ⟨f, h⟩)⟩
    · obtain ⟨g, hg, _⟩ := finish_eq_error.mp h
      exact ⟨hsteps.running, Or.inr ⟨config, step, rest, selected, hsteps,
        (torn_iff w (hsteps.orderly w hs).config).mpr ⟨g, hg⟩⟩⟩
  · rintro ⟨hdone, h | ⟨config, step, rest, selected, hsteps, htorn⟩⟩
    · obtain ⟨f, hf⟩ := (configuration_fault_iff w hid hs).mpr h
      refine ⟨f, ?_⟩
      unfold transition
      rw [if_neg (by rw [hdone]; exact Bool.false_ne_true), hf]
      rfl
    · obtain ⟨f, hf⟩ := (torn_iff w (hsteps.orderly w hs).config).mp htorn
      exact ⟨f, by rw [hsteps.transition_eq]; exact finish_eq_error.mpr ⟨f, hf, rfl⟩⟩

/-! ### The first state -/

/-- The steps that enter the first state come to rest. -/
def Starts (m : Machine) (rest : Step) : Prop :=
  (m.surroundings m.definition.context (Event.named Event.initialName)).settle m.transientLimit
    m.transientLimit m.initialStep = .ok rest

theorem Starts.settles {rest : Step} (h : Starts m rest) :
    (m.surroundings m.definition.context (Event.named Event.initialName)).Settles m.initialStep rest
      ((m.surroundings m.definition.context (Event.named Event.initialName)).settleLog
        m.transientLimit m.initialStep) :=
  Surroundings.settles_of_settle h

theorem initialState_fault_iff (w : m.tree.WellFormed) :
    (∃ f, m.initialState = .error (.transition f)) ↔
      ∃ rest, Starts m rest ∧ Torn m.tree rest.config := by
  constructor
  · rintro ⟨f, h⟩
    rcases bind_eq_error.mp h with h | ⟨rest, hrest, h⟩
    · rcases Surroundings.settle_error (e := m.surroundings m.definition.context
          (Event.named Event.initialName)) w (orderly_initialStep w) h with ⟨_, h⟩ | ⟨_, _, h⟩ <;>
        cases h
    · obtain ⟨g, hg, _⟩ := finish_eq_error.mp h
      have hstarts : Starts m rest := hrest
      have horderly : Orderly m.tree rest := hstarts.settles.orderly w (orderly_initialStep w)
      exact ⟨rest, hstarts, (torn_iff w horderly.config).mpr ⟨g, hg⟩⟩
  · rintro ⟨rest, hrest, htorn⟩
    have horderly : Orderly m.tree rest := hrest.settles.orderly w (orderly_initialStep w)
    obtain ⟨f, hf⟩ := (torn_iff w horderly.config).mp htorn
    refine ⟨f, bind_eq_error.mpr (Or.inr ⟨rest, hrest, ?_⟩)⟩
    exact finish_eq_error.mpr ⟨f, hf, rfl⟩

/-! ### Machines without faults -/

/-- The steps of a tidy tree come to rest in legal configurations. -/
theorem Steps.legal_of_tidy (w : m.tree.WellFormed) (hs : Standing m s) (htidy : Tidy m.tree)
    {config : NodeSet} {step rest : Step} {selected : List Candidate}
    (h : Steps m s e config step rest selected) : Legal m.tree rest.config :=
  h.legal w hs (h.tame w hs htidy)

theorem Starts.legal_of_tidy (w : m.tree.WellFormed) (htidy : Tidy m.tree) {rest : Step}
    (h : Starts m rest) : Legal m.tree rest.config :=
  h.settles.legal w (orderly_initialStep w) (h.settles.tame w htidy (orderly_initialStep w))
    (legal_initialStep w)

/-- **When a machine that has been loaded runs into a fault.**  It does so on an event exactly
when the value of its state shows a parallel node without regions or its steps come to rest
in a torn configuration, and at the start exactly in the second case.  Without such nodes,
and when no transition has a parallel node for its domain, it never does. -/
theorem fault_iff {c : StateConfig} {source : Json}
    (h : Definition.ofConfig c source = .ok m.definition) :
    (∀ s e, Reachable m s → ((∃ f, m.transition s e = .error (.transition f)) ↔ Faulty m s e)) ∧
    ((∃ f, m.initialState = .error (.transition f)) ↔
      ∃ rest, Starts m rest ∧ Torn m.tree rest.config) ∧
    (Tidy m.tree → (∀ i, ¬ Hollow m.tree i) →
      (∀ s e, Reachable m s → ∀ f, m.transition s e ≠ .error (.transition f)) ∧
        ∀ f, m.initialState ≠ .error (.transition f)) := by
  obtain ⟨w, hid⟩ : m.tree.WellFormed ∧ (m.tree.node Tree.root).id = m.id :=
    wellFormed_of_ofConfig h
  have hevent : ∀ s e, Reachable m s →
      ((∃ f, m.transition s e = .error (.transition f)) ↔ Faulty m s e) :=
    fun s e hs => transition_fault_iff w hid (hs.standing w)
  refine ⟨hevent, initialState_fault_iff w, fun htidy hhollow => ⟨?_, ?_⟩⟩
  · intro s e hs f hf
    obtain ⟨_, ⟨i, hi, _⟩ | ⟨_, _, _, _, hsteps, htorn⟩⟩ := (hevent s e hs).mp ⟨f, hf⟩
    · exact hhollow i hi
    · exact (hsteps.legal_of_tidy w (hs.standing w) htidy).not_torn w htorn
  · intro f hf
    obtain ⟨rest, hrest, htorn⟩ := (initialState_fault_iff w).mp ⟨f, hf⟩
    exact (hrest.legal_of_tidy w htidy).not_torn w htorn

/-! ### Two machines with faults -/

/-- Whether a result is a fault of a transition. -/
def isFault {α : Type} : Except Error α → Bool
  | .error (.transition _) => true
  | _ => false

theorem exists_fault {α : Type} {x : Except Error α} (h : isFault x = true) :
    ∃ f, x = .error (.transition f) := by
  cases x with
  | ok a => cases h
  | error err =>
      cases err with
      | transition f => exact ⟨f, rfl⟩
      | _ => cases h

/-- A loaded machine whose first state answers an event with a fault. -/
theorem exists_fault_of_run (c : StateConfig) (event : String)
    (h : (Definition.ofConfig c .null).toOption.any (fun d =>
      (ofDefinition d).initialState.toOption.any fun s =>
        isFault ((ofDefinition d).transition s (Event.named event))) = true) :
    ∃ m s f, Definition.ofConfig c .null = .ok m.definition ∧ Reachable m s ∧
      m.transition s (Event.named event) = .error (.transition f) := by
  obtain ⟨d, hd, h⟩ := exists_of_run h
  obtain ⟨s, hs, h⟩ := exists_of_run h
  obtain ⟨f, hf⟩ := exists_fault h
  exact ⟨ofDefinition d, s, f, hd, .initial hs, hf⟩

/-- A parallel node without regions in a compound root. -/
def hollowChart : StateConfig :=
  { StateConfig.blank with
    id := some "m"
    initial := some "p"
    states := [("p", { StateConfig.blank with type := some .parallel })] }

/-- The first state of the hollow chart cannot be read back. -/
theorem fault_iff_hollowChart : ∃ m s, Definition.ofConfig hollowChart .null = .ok m.definition ∧
    Reachable m s ∧ Faulty m s (Event.named "GO") := by
  obtain ⟨m, s, f, hm, hs, hf⟩ :=
    exists_fault_of_run hollowChart "GO" (by decide +kernel)
  exact ⟨m, s, hm, hs, ((fault_iff hm).1 s (Event.named "GO") hs).mp ⟨f, hf⟩⟩

/-- A parallel root that goes to one of its own regions, beside a compound one. -/
def splitChart : StateConfig :=
  { StateConfig.blank with
    id := some "m"
    type := some .parallel
    states := [
      ("a", StateConfig.blank),
      ("b", { StateConfig.blank with
        initial := some "x"
        states := [("x", StateConfig.blank)] })]
    on := [("GO", [{ CandidateConfig.idle with target := some ".a" }])] }

/-- Loaded machines do run into faults: the transition of the split chart drops a region. -/
theorem exists_fault_splitChart : ¬ ∀ (m : Machine) (c : StateConfig) (source : Json),
    Definition.ofConfig c source = .ok m.definition →
      ∀ s e, Reachable m s → ∀ f, m.transition s e ≠ .error (.transition f) := by
  intro hnever
  obtain ⟨m, s, f, hm, hs, hf⟩ :=
    exists_fault_of_run splitChart "GO" (by decide +kernel)
  exact hnever m splitChart .null hm s _ hs f hf

end Machine

end Statechart
