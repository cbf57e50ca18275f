/-
Where the candidates of a node come from.

A state says in three places what it answers: under events, under delays, and for its own
completion.  `DraftHandler.Origin` tells the three apart for a handler of a draft, and
`exists_origin` carries that to the candidates of a tree that loads: each of them is written
at its place in one of the three, at the state that its node stands for.

Only the names of the events under delays are made up for one node.  Where no event is written
that begins like them, an event that a node waits for is answered by what this node declares
under that delay, and by nothing else in the tree (`declared_of_candidates`).
-/
import Statechart.Proofs.Timer.Names
import Statechart.Proofs.Tree.Faithful

namespace Statechart

open Outcome

/-- No event that is written in a definition begins like the name of a delayed one. -/
inductive StateConfig.PlainEvents : StateConfig → Prop
  | mk {c : StateConfig} (on : ∀ e ∈ c.on, ¬ Event.afterStart.toList <+: e.1.toList)
      (states : ∀ e ∈ c.states, PlainEvents e.2) : PlainEvents c

namespace StateConfig.PlainEvents

variable {c s : StateConfig}

theorem on : c.PlainEvents → ∀ e ∈ c.on, ¬ Event.afterStart.toList <+: e.1.toList
  | .mk on _ => on

theorem states : c.PlainEvents → ∀ e ∈ c.states, PlainEvents e.2
  | .mk _ states => states

theorem below? {path : List String} : ∀ {c : StateConfig}, c.PlainEvents →
    c.below? path = some s → s.PlainEvents := by
  induction path with
  | nil => intro c h hs; cases hs; exact h
  | cons key rest ih =>
      intro c h hs
      rw [StateConfig.below?, Option.bind_eq_some_iff] at hs
      obtain ⟨e, hfind, hs⟩ := hs
      exact ih (h.states e (List.mem_of_find?_eq_some hfind)) hs

end StateConfig.PlainEvents

namespace DraftHandler

variable {id event : String} {c : StateConfig} {hs hs' : List DraftHandler} {h : DraftHandler}
  {delay : Option Nat} {written : TransitionConfig}

/-- What a handler is put down with: an event, a delay, and the candidates as they are
written. -/
structure Answers (h : DraftHandler) (event : String) (delay : Option Nat)
    (written : TransitionConfig) : Prop where
  event : h.event = event
  delay : h.delay = delay
  candidates : written.mapM CandidateConfig.draft = .ok h.candidates

/-- The candidate at a place is the one that is written at that place. -/
theorem Answers.exists_written (answers : h.Answers event delay written) {k : Nat}
    {drafted : DraftCandidate} (hk : h.candidates[k]? = some drafted) :
    ∃ config, written[k]? = some config ∧ config.draft = .ok drafted := by
  have hall := mapM_eq_ok.mp answers.candidates
  obtain ⟨hlt, rfl⟩ := List.getElem?_eq_some_iff.mp hk
  have hlt' : k < written.length := by rw [hall.length_eq]; exact hlt
  exact ⟨written[k], List.getElem?_eq_getElem hlt', hall.get hlt' hlt⟩

/-- Where a state with an id has written what a handler answers. -/
inductive Origin (id : String) (c : StateConfig) (h : DraftHandler) : Prop
  | event {name : String} {written : TransitionConfig} (mem : (name, written) ∈ c.on)
      (answers : h.Answers name none written)
  | delay {text : String} {written : TransitionConfig} {delay : Nat}
      (mem : (text, written) ∈ c.after)
      (reads : Text.word? (Text.trim text).toList = some delay)
      (answers : h.Answers (Event.afterName delay id) (some delay) written)
  | completion {written : TransitionConfig} (mem : c.onDone = some written)
      (answers : h.Answers (Event.doneName id) none written)

/-- What holds of the handlers so far and of a new one holds of all. -/
theorem forall_mem_add {P : DraftHandler → Prop} (hadd : add id hs event delay written = .ok hs')
    (hold : ∀ h ∈ hs, P h) (hnew : ∀ h, h.Answers event delay written → P h) :
    ∀ h ∈ hs', P h := by
  unfold add at hadd
  split at hadd
  · cases hadd
  obtain ⟨candidates, hcandidates, hadd⟩ := bind_eq_ok.mp hadd
  cases hadd
  intro h hh
  rcases List.mem_append.mp hh with hh | hh
  · exact hold h hh
  · rw [List.mem_singleton.mp hh]
    exact hnew _ ⟨rfl, rfl, hcandidates⟩

/-- **Every handler of a state answers what the state declares.** -/
theorem origin_of_ofConfig (hconfig : ofConfig id c = .ok hs) : ∀ h ∈ hs, Origin id c h := by
  unfold ofConfig at hconfig
  obtain ⟨hs₁, hon, hconfig⟩ := bind_eq_ok.mp hconfig
  obtain ⟨hs₂, hafter, hconfig⟩ := bind_eq_ok.mp hconfig
  have h₁ : ∀ h ∈ hs₁, Origin id c h := by
    refine foldlM_keeps (P := fun hs => ∀ h ∈ hs, Origin id c h) ?_ (by simp) hon
    intro hs e he hs' hold hadd
    exact forall_mem_add hadd hold fun h hanswers => .event he hanswers
  have h₂ : ∀ h ∈ hs₂, Origin id c h := by
    refine foldlM_keeps (P := fun hs => ∀ h ∈ hs, Origin id c h) ?_ h₁ hafter
    intro hs e he hs' hold hadd
    unfold addDelayed at hadd
    cases hreads : Text.word? (Text.trim e.1).toList with
    | none => simp [hreads] at hadd
    | some delay =>
        rw [hreads] at hadd
        exact forall_mem_add hadd hold fun h hanswers => .delay he hreads hanswers
  split at hconfig
  · rename_i written hdone
    exact forall_mem_add hconfig h₂ fun h hanswers => .completion hdone hanswers
  · cases hconfig
    exact h₂

end DraftHandler

namespace Tree

variable {t : Tree} {name : String} {c : StateConfig} {i n delay : Nat} {handler : Handler}
  {a : Candidate}

/-- **Every candidate is written at its place at the state of its node.** -/
theorem exists_origin (h : build name c = .ok t) (hhandler : handler ∈ (t.node i).handlers)
    (ha : a ∈ handler.candidates) :
    ∃ s drafted, c.below? (t.path i) = some s ∧ DraftHandler.Origin (t.node i).id s drafted ∧
      handler.event = drafted.event ∧ a.source = i ∧ a.event = drafted.event ∧
      a.delay = drafted.delay ∧
      drafted.candidates[a.index]? = some ⟨a.target, a.guard, a.actions⟩ := by
  obtain ⟨s, d, depth, hplaced, hhandler⟩ := exists_placed_of_handler h hhandler
  obtain ⟨drafted, hdrafted, rfl⟩ := List.mem_map.mp hhandler
  obtain ⟨k, hk, rfl⟩ := List.mem_mapIdx.mp ha
  have hid : (t.node i).id = d.id := by rw [hplaced.node_eq]; rfl
  rw [hid]
  exact ⟨s, drafted, hplaced.state,
    DraftHandler.origin_of_ofConfig hplaced.drawn.head.handlers drafted hdrafted, rfl, rfl, rfl,
    rfl, List.getElem?_eq_getElem hk⟩

/-- A candidate is one that the state of a node declares under a delay, at its place. -/
structure Declared (t : Tree) (c : StateConfig) (n delay : Nat) (a : Candidate) : Prop where
  source : a.source = n
  delayed : a.delay = some delay
  written : ∃ s text written config, c.below? (t.path n) = some s ∧ (text, written) ∈ s.after ∧
    Text.word? (Text.trim text).toList = some delay ∧ written[a.index]? = some config ∧
      config.draft = .ok ⟨a.target, a.guard, a.actions⟩

/-- The event that a node waits for carries the delay and the id of the node. -/
theorem event_of_delayed (h : build name c = .ok t) {event : String}
    (hevent : (event, delay) ∈ (t.node n).delayedEvents) :
    event = Event.afterName delay (t.node n).id ∧ delay ≤ Text.wordLimit := by
  obtain ⟨handler, hhandler, hfirst⟩ := List.mem_filterMap.mp hevent
  cases hcandidates : handler.candidates with
  | nil => simp [hcandidates] at hfirst
  | cons a rest =>
      have ha : a ∈ handler.candidates := by rw [hcandidates]; exact List.mem_cons_self ..
      obtain ⟨s, drafted, -, horigin, hname, -, -, hdelay, -⟩ := exists_origin h hhandler ha
      simp only [hcandidates, Option.map_eq_some_iff, Prod.mk.injEq] at hfirst
      obtain ⟨d, hd, rfl, rfl⟩ := hfirst
      rw [hdelay] at hd
      cases horigin with
      | event _ answers => simp [answers.delay] at hd
      | completion _ answers => simp [answers.delay] at hd
      | delay _ reads answers =>
          rw [answers.delay, Option.some.injEq] at hd
          subst hd
          exact ⟨hname.trans answers.event, Text.le_of_word? reads⟩

/-- **The event that a node waits for is answered by what the node declares under that delay**,
and by nothing else in the tree. -/
theorem declared_of_candidates (h : build name c = .ok t) (hplain : c.PlainEvents)
    (hn : n < t.size)
    (ha : a ∈ (t.node i).candidates (Event.afterName delay (t.node n).id)) :
    Declared t c n delay a := by
  have hi := (mem_allCandidates ha).1
  obtain ⟨handler, hhandler, hname, ha⟩ := handler_of_candidates ha
  obtain ⟨s, drafted, hs, horigin, hevent, hsource, -, hdelay, hplace⟩ :=
    exists_origin h hhandler ha
  rw [hname] at hevent
  cases horigin with
  | event mem answers =>
      refine absurd ?_ ((hplain.below? hs).on _ mem)
      rw [← answers.event, ← hevent, Event.afterName_toList]
      exact List.prefix_append ..
  | completion _ answers =>
      rw [answers.event] at hevent
      exact absurd hevent Event.afterName_ne_doneName
  | delay mem reads answers =>
      rw [answers.event] at hevent
      obtain ⟨rfl, hid⟩ := Event.afterName_inj hevent
      obtain rfl := (wellFormed_of_build h).eq_of_id hn hi hid
      obtain ⟨config, hconfig, hdraft⟩ := answers.exists_written hplace
      exact ⟨hsource, hdelay.trans answers.delay, s, _, _, config, hs, mem, reads, hconfig, hdraft⟩

end Tree

end Statechart
