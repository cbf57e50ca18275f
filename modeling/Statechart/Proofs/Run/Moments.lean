/-
What happens during a run, moment by moment.

A machine keeps the configuration that its steps lead to but not how it came about.  The
log of a step lists its moves, its exits and its entries in the order in which the step
carries them out, and the log of a macrostep is that of its steps, one after the other.
Nothing in the machine reads a log; they are there to speak about the past of a run.

`Settles` is the run of a macrostep as a relation.  It drops the limit on the number of
steps, which only decides whether a macrostep ends, and carries the log along.  What one
step keeps, `Takes`, a whole macrostep keeps, by induction on `Settles`.
-/
import Statechart.Proofs.Step.Legality
import Statechart.Step.Settle

namespace Statechart

open Statechart.Tree Outcome

/-- One thing that happens while a machine runs. -/
inductive Moment
  /-- A transition is taken to a target, with its domain. -/
  | moved (target domain : Nat)
  | exited (node : Nat)
  | entered (node : Nat)
  /-- A timer is fired, and disarmed by that. -/
  | fired (key : TimerKey)
deriving DecidableEq

namespace Step

variable {t : Tree} {s s' : Step} {selected : List Candidate} {log : List Moment}

/-- What happens when a change is made. -/
def Change.moments (d : Change) (moves : List (Nat × Nat)) : List Moment :=
  moves.map (fun m => .moved m.1 m.2) ++ d.exits.toList.reverse.map .exited ++
    d.entered.toList.map .entered

/-- What happens in a step. -/
def microstepLog (t : Tree) (s : Step) (selected : List Candidate) : List Moment :=
  match selected.mapM (targetAndDomain t) with
  | .ok targets =>
    let moves := targets.filterMap id
    (Change.of t s.config s.history moves).moments moves
  | .error _ => []

/-- What happens in the steps of a macrostep. -/
def Surroundings.settleLog (e : Surroundings) (budget : Nat) (s : Step) : List Moment :=
  if s.done then []
  else
    match e.next s with
    | .error _ => []
    | .ok (selected, raised) =>
      if selected.isEmpty then []
      else
        match budget with
        | 0 => []
        | budget + 1 =>
          match ({ s with raised } : Step).microstep e.tree selected with
          | .error _ => []
          | .ok s' => microstepLog e.tree { s with raised } selected ++ settleLog e budget s'

/-- The timers that a moment arms and cancels. -/
def commands (t : Tree) : Moment → List TimerCommand
  | .moved _ _ => []
  | .exited i => cancels (t.node i)
  | .entered i => arms (t.node i)
  | .fired key => [.cancel key]

/-! ### Steps -/

/-- A step that takes some candidates, with its log. -/
def Takes (t : Tree) (s : Step) (selected : List Candidate) (s' : Step) (log : List Moment) :
    Prop :=
  s.microstep t selected = .ok s' ∧ log = microstepLog t s selected

/-- A step of candidates that have been selected makes the change of their moves. -/
theorem Takes.makes (h : Takes t s selected s' log) : ∃ moves, MovesOf t selected moves ∧
    log = (Change.of t s.config s.history moves).moments moves ∧
    Makes t s (Change.of t s.config s.history moves) s' := by
  obtain ⟨hstep, hlog⟩ := h
  obtain ⟨targets, htargets, _⟩ := bind_eq_ok.mp hstep
  have hmoves : MovesOf t selected (targets.filterMap id) := ⟨targets, htargets, rfl⟩
  obtain ⟨s'', hs'', hmakes⟩ := microstep_of_moves (s := s) hmoves
  rw [hstep] at hs''
  cases hs''
  refine ⟨_, hmoves, ?_, hmakes⟩
  rw [hlog, microstepLog, htargets]

/-- What the moments of a change say of timers is what the step does to them. -/
theorem Makes.timers_eq {d : Change} (h : Makes t s d s') (moves : List (Nat × Nat)) :
    s'.timers = s.timers ++ (d.moments moves).flatMap (commands t) := by
  have hmoved : (moves.map fun m => Moment.moved m.1 m.2).flatMap (commands t) = [] := by
    rw [List.flatMap_map, List.flatMap_eq_nil_iff]
    exact fun _ _ => rfl
  rw [h.timers, Change.moments, List.flatMap_append, List.flatMap_append, hmoved,
    List.nil_append, List.flatMap_map, List.flatMap_map, List.append_assoc]
  rfl

theorem Takes.timers (h : Takes t s selected s' log) :
    s'.timers = s.timers ++ log.flatMap (commands t) := by
  obtain ⟨moves, _, rfl, hmakes⟩ := h.makes
  exact hmakes.timers_eq moves

/-- A step in the middle of a run: its configuration hangs together, and so did those that
its history was recorded from. -/
structure Orderly (t : Tree) (s : Step) : Prop where
  config : Coherent t s.config
  history : MadeFrom t (Coherent t) s.history

theorem Orderly.takes (w : t.WellFormed) (hs : Orderly t s) {name : String}
    (hselected : Selection.Selected t s.config name selected) (h : Takes t s selected s' log) :
    Orderly t s' := by
  obtain ⟨moves, hmoves, _, hmakes⟩ := h.makes
  refine ⟨?_, ?_⟩
  · rw [hmakes.config]
    exact coherent_after w hs.history hs.config (hmoves.fit w hs.config hselected)
  · rw [hmakes.history]
    exact made_change hs.history hs.config

/-- A move that gives a parallel domain back what it takes: the domain is the target. -/
def Tame (t : Tree) (x D : Nat) : Prop := t.kind D = .parallel → x = D

/-- The moves of a log are tame. -/
def TameLog (t : Tree) (log : List Moment) : Prop := ∀ x D, .moved x D ∈ log → Tame t x D

theorem tameLog_nil : TameLog t [] := fun _ _ h => absurd h List.not_mem_nil

theorem tameLog_append {first last : List Moment} :
    TameLog t (first ++ last) ↔ TameLog t first ∧ TameLog t last := by
  constructor
  · intro h
    exact ⟨fun x D hx => h x D (List.mem_append_left _ hx),
      fun x D hx => h x D (List.mem_append_right _ hx)⟩
  · rintro ⟨hfirst, hlast⟩ x D hx
    exact (List.mem_append.mp hx).elim (hfirst x D) (hlast x D)

/-- Every candidate of a tree moves tamely. -/
def Tidy (t : Tree) : Prop :=
  ∀ i event c x D, c ∈ (t.node i).candidates event → Moves t c x D → Tame t x D

/-- Selected candidates of a tidy tree make tame moves. -/
theorem Takes.tame (htidy : Tidy t) {config : NodeSet} {name : String}
    (hselected : Selection.Selected t config name selected) (h : Takes t s selected s' log) :
    TameLog t log := by
  obtain ⟨moves, hmoves, rfl, _⟩ := h.makes
  intro x D hmoved
  rw [Change.moments] at hmoved
  have hm : (x, D) ∈ moves := by simpa using hmoved
  obtain ⟨c, hc, hmove⟩ := hmoves.exists_candidate hm
  obtain ⟨_, _, _, n, _, hcandidate⟩ := hselected.proposed c hc
  exact htidy n name c x D hcandidate hmove

/-- A step with tame moves leaves a legal configuration legal. -/
theorem Takes.legal (w : t.WellFormed) (hs : Orderly t s) {name : String}
    (hselected : Selection.Selected t s.config name selected) (h : Takes t s selected s' log)
    (htame : TameLog t log) (hC : Legal t s.config) : Legal t s'.config := by
  obtain ⟨moves, hmoves, rfl, hmakes⟩ := h.makes
  have hfit := hmoves.fit w hs.config hselected
  rw [hmakes.config]
  refine legal_after w hs.history hs.config hfit hC.regions fun m hm hkind => ?_
  have hmoved : Moment.moved m.1 m.2 ∈ (Change.of t s.config s.history moves).moments moves :=
    List.mem_append_left _ (List.mem_append_left _ (List.mem_map.mpr ⟨m, hm, rfl⟩))
  have hself : m.1 = m.2 := htame _ _ hmoved hkind
  have hactive : t.isHistory m.1 = false := by rw [hself, isHistory, hkind]; rfl
  rw [Entry.seeds, hactive, if_neg Bool.false_ne_true, hself]
  exact List.mem_singleton.mpr rfl

/-! ### Macrosteps -/

namespace Surroundings

variable {e : Surroundings}

theorem offer_selected {config : NodeSet} {names raised : List String}
    (h : e.offer config names = .ok (selected, raised)) :
    selected = [] ∨ ∃ event name, e.select config event name = .ok selected := by
  induction names with
  | nil => cases h; exact Or.inl rfl
  | cons name rest ih =>
      rw [offer] at h
      obtain ⟨found, hfound, h⟩ := bind_eq_ok.mp h
      split at h
      · exact ih h
      · cases h
        exact Or.inr ⟨_, _, hfound⟩

/-- What is taken next has been selected for some event. -/
theorem next_selected {raised : List String} (h : e.next s = .ok (selected, raised)) :
    selected = [] ∨ ∃ event name, e.select s.config event name = .ok selected := by
  obtain ⟨found, hfound, h⟩ := bind_eq_ok.mp h
  split at h
  · exact offer_selected h
  · cases h
    exact Or.inr ⟨_, _, hfound⟩

/-- Only guards stop the choice of the next transitions. -/
theorem next_error (w : e.tree.WellFormed) {err : Error} (h : e.next s = .error err) :
    ∃ f, err = .guard f := by
  have hoffer : ∀ names, e.offer s.config names = .error err → ∃ f, err = .guard f := by
    intro names
    induction names with
    | nil => intro h; cases h
    | cons name rest ih =>
        intro h
        rcases bind_eq_error.mp h with h | ⟨found, _, h⟩
        · exact Selection.select_error w h
        · split at h
          · exact ih h
          · cases h
  rcases bind_eq_error.mp h with h | ⟨found, _, h⟩
  · exact Selection.select_error w h
  · split at h
    · exact hoffer _ h
    · cases h

/-- Steps until nothing is enabled, with the log of what happens. -/
inductive Settles (e : Surroundings) : Step → Step → List Moment → Prop
  | done {s : Step} (done : s.done = true) : Settles e s s []
  | rest {s : Step} {raised : List String} (done : s.done = false)
      (next : e.next s = .ok ([], raised)) : Settles e s { s with raised } []
  | step {s s₁ s' : Step} {selected : List Candidate} {raised : List String}
      {log log' : List Moment} (done : s.done = false) (next : e.next s = .ok (selected, raised))
      (some : selected ≠ []) (takes : Takes e.tree { s with raised } selected s₁ log)
      (settles : Settles e s₁ s' log') : Settles e s s' (log ++ log')

/-- How a macrostep ends, or goes on. -/
theorem settle_cases {limit budget : Nat} (h : e.settle limit budget s = .ok s') :
    (s.done = true ∧ s' = s) ∨ (s.done = false ∧ ∃ selected raised,
      e.next s = .ok (selected, raised) ∧ ((selected = [] ∧ s' = { s with raised }) ∨
        ∃ budget' s₁, budget = budget' + 1 ∧ selected ≠ [] ∧
          ({ s with raised } : Step).microstep e.tree selected = .ok s₁ ∧
          e.settle limit budget' s₁ = .ok s')) := by
  rw [settle.eq_def] at h
  split at h
  · rename_i hdone
    cases h
    exact Or.inl ⟨hdone, rfl⟩
  · rename_i hdone
    obtain ⟨⟨selected, raised⟩, hnext, h⟩ := bind_eq_ok.mp h
    refine Or.inr ⟨Bool.not_eq_true _ ▸ hdone, selected, raised, hnext, ?_⟩
    dsimp only at h
    split at h
    · rename_i hempty
      cases h
      exact Or.inl ⟨List.isEmpty_iff.mp hempty, rfl⟩
    · rename_i hempty
      cases budget with
      | zero => cases h
      | succ budget =>
          obtain ⟨s₁, hs₁, h⟩ := bind_eq_ok.mp h
          exact Or.inr ⟨budget, s₁, rfl, fun h => hempty (List.isEmpty_iff.mpr h), hs₁, h⟩

/-- A macrostep that ends has settled, and its log is that of its steps. -/
theorem settles_of_settle {limit budget : Nat} :
    ∀ {s : Step}, e.settle limit budget s = .ok s' → Settles e s s' (e.settleLog budget s) := by
  induction budget using Nat.strong_induction_on with
  | _ budget ih =>
      intro s h
      rw [settleLog.eq_def]
      rcases settle_cases h with ⟨hdone, rfl⟩ | ⟨hdone, selected, raised, hnext, h⟩
      · rw [if_pos hdone]
        exact .done hdone
      · rw [if_neg (by rw [hdone]; exact Bool.false_ne_true), hnext]
        dsimp only
        rcases h with ⟨rfl, rfl⟩ | ⟨budget', s₁, rfl, hsome, hs₁, h⟩
        · exact .rest hdone hnext
        · rw [if_neg (by rwa [List.isEmpty_iff])]
          dsimp only
          rw [hs₁]
          exact .step hdone hnext hsome ⟨hs₁, rfl⟩ (ih budget' (Nat.lt_succ_self _) h)

/-! ### What macrosteps keep -/

theorem Settles.orderly (w : e.tree.WellFormed) {log : List Moment} (h : Settles e s s' log)
    (hs : Orderly e.tree s) : Orderly e.tree s' := by
  induction h with
  | done _ => exact hs
  | rest _ _ => exact ⟨hs.config, hs.history⟩
  | @step s s₁ s' selected raised log log' _ hnext hsome htakes _ ih =>
      obtain ⟨event, name, hselect⟩ := (next_selected hnext).resolve_left hsome
      have hs' : Orderly e.tree { s with raised } := ⟨hs.config, hs.history⟩
      exact ih (hs'.takes w (Selection.selected_of_select w hs.config hselect) htakes)

theorem Settles.tame (w : e.tree.WellFormed) (htidy : Tidy e.tree) {log : List Moment}
    (h : Settles e s s' log) (hs : Orderly e.tree s) : TameLog e.tree log := by
  induction h with
  | done _ => exact tameLog_nil
  | rest _ _ => exact tameLog_nil
  | @step s s₁ s' selected raised log log' _ hnext hsome htakes _ ih =>
      obtain ⟨event, name, hselect⟩ := (next_selected hnext).resolve_left hsome
      have hs' : Orderly e.tree { s with raised } := ⟨hs.config, hs.history⟩
      have hselected := Selection.selected_of_select w hs.config hselect
      exact tameLog_append.mpr
        ⟨htakes.tame htidy hselected, ih (hs'.takes w hselected htakes)⟩

theorem Settles.legal (w : e.tree.WellFormed) {log : List Moment} (h : Settles e s s' log)
    (hs : Orderly e.tree s) (htame : TameLog e.tree log) (hC : Legal e.tree s.config) :
    Legal e.tree s'.config := by
  induction h with
  | done _ => exact hC
  | rest _ _ => exact hC
  | @step s s₁ s' selected raised log log' _ hnext hsome htakes _ ih =>
      obtain ⟨event, name, hselect⟩ := (next_selected hnext).resolve_left hsome
      have hs' : Orderly e.tree { s with raised } := ⟨hs.config, hs.history⟩
      have hselected := Selection.selected_of_select w hs.config hselect
      obtain ⟨htakes_tame, hsettles_tame⟩ := tameLog_append.mp htame
      exact ih (hs'.takes w hselected htakes) hsettles_tame
        (htakes.legal w hs' hselected htakes_tame hC)

theorem Settles.timers {log : List Moment} (h : Settles e s s' log) :
    s'.timers = s.timers ++ log.flatMap (commands e.tree) := by
  induction h with
  | done _ => rw [List.flatMap_nil, List.append_nil]
  | rest _ _ => rw [List.flatMap_nil, List.append_nil]
  | step _ _ _ htakes _ ih =>
      rw [ih, htakes.timers, List.flatMap_append, List.append_assoc]

/-- A macrostep fails only where a guard fails or the steps do not end. -/
theorem settle_error (w : e.tree.WellFormed) {limit budget : Nat} {err : Error} :
    ∀ {s : Step}, Orderly e.tree s → e.settle limit budget s = .error err →
      (∃ f, err = .guard f) ∨ ∃ event n, err = .transientCycle event n := by
  induction budget using Nat.strong_induction_on with
  | _ budget ih =>
      intro s hs h
      rw [settle.eq_def] at h
      split at h
      · cases h
      rcases bind_eq_error.mp h with h | ⟨⟨selected, raised⟩, hnext, h⟩
      · exact Or.inl (next_error w h)
      dsimp only at h
      split at h
      · cases h
      rename_i hempty
      cases budget with
      | zero =>
          cases h
          exact Or.inr ⟨_, _, rfl⟩
      | succ budget =>
          have hsome : selected ≠ [] := fun h => hempty (List.isEmpty_iff.mpr h)
          obtain ⟨event, name, hselect⟩ := (next_selected hnext).resolve_left hsome
          have hs' : Orderly e.tree { s with raised } := ⟨hs.config, hs.history⟩
          have hselected := Selection.selected_of_select w hs.config hselect
          obtain ⟨_, s₁, _, _, hs₁, _⟩ := exists_microstep w hs'.config hs'.history hselected
          rcases bind_eq_error.mp h with h | ⟨s₂, hs₂, h⟩
          · rw [hs₁] at h
            cases h
          · exact ih budget (Nat.lt_succ_self _) (hs'.takes w hselected ⟨hs₂, rfl⟩) h

end Surroundings

end Step

end Statechart
