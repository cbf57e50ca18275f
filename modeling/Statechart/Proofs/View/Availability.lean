/-
No event that has an effect is shown as unavailable.

The events that a machine is said to answer are found by a scan of their own over the active
nodes, which knows nothing of guards, of the walks of the leaves or of conflicts.  It has to
list every event that may be taken all the same.  It does, because it leaves out only what
nothing active answers with an effect, completion events, and events that come by themselves,
and because a handler is left out as delayed only as a whole: its candidates have one delay
(`delay_of_handler`).
-/
import Statechart.Proofs.Run.Handled
import Statechart.Proofs.Run.Since
import Statechart.Proofs.View.Highlight
import Statechart.Proofs.View.Marking

namespace Statechart

open Statechart.Tree Outcome View

/-- The candidates of a handler have one delay. -/
theorem Tree.delay_of_handler {t : Tree} {name : String} {c : StateConfig}
    (h : Tree.build name c = .ok t) {i : Nat} {handler : Handler}
    (hhandler : handler ∈ (t.node i).handlers) :
    ∃ delay, ∀ a ∈ handler.candidates, a.delay = delay := by
  obtain ⟨s, d, depth, -, hhandler⟩ := exists_placed_of_handler h hhandler
  obtain ⟨draft, -, rfl⟩ := List.mem_map.mp hhandler
  refine ⟨draft.delay, fun a ha => ?_⟩
  obtain ⟨place, hplace, rfl⟩ := List.mem_mapIdx.mp ha
  rfl

/-- A handler with a delayed candidate is listed among the delayed events of its node. -/
theorem Tree.mem_delayedEvents {t : Tree} {name : String} {c : StateConfig}
    (h : Tree.build name c = .ok t) {i delay : Nat} {handler : Handler}
    (hhandler : handler ∈ (t.node i).handlers) {a : Candidate} (ha : a ∈ handler.candidates)
    (hdelay : a.delay = some delay) : (handler.event, delay) ∈ (t.node i).delayedEvents := by
  obtain ⟨common, hcommon⟩ := delay_of_handler h hhandler
  refine List.mem_filterMap.mpr ⟨handler, hhandler, ?_⟩
  cases hfirst : handler.candidates with
  | nil => rw [hfirst] at ha; exact absurd ha List.not_mem_nil
  | cons first rest =>
      have hmem : first ∈ handler.candidates := by rw [hfirst]; exact List.mem_cons_self ..
      dsimp only
      rw [hcommon first hmem, ← hcommon a ha, hdelay]
      rfl

/-- Taking the first of each leaves nothing out and adds nothing. -/
theorem Definition.mem_firsts {name : String} : ∀ {l seen : List String},
    name ∈ firsts seen l ↔ name ∈ seen ∨ name ∈ l := by
  intro l
  induction l with
  | nil => intro seen; simp [firsts]
  | cons a rest ih =>
      intro seen
      rw [firsts, ih, List.mem_cons]
      by_cases ha : a ∈ seen
      · rw [if_pos ha]
        constructor
        · rintro (h | h)
          · exact Or.inl h
          · exact Or.inr (Or.inr h)
        · rintro (h | rfl | h)
          · exact Or.inl h
          · exact Or.inl ha
          · exact Or.inr h
      · rw [if_neg ha, List.mem_append, List.mem_singleton, or_assoc]

namespace Machine

variable {m : Machine} {s : State} {config : NodeSet} {name : String}

/-- The events that a running machine is said to answer. -/
theorem nextEvents_eq_ok (hrunning : s.done = false) (hreads : m.configuration s.value = .ok config) :
    ∃ events, m.nextEvents s = .ok events ∧ ∀ name, name ∈ events ↔
      ∃ i ∈ config, ∃ h ∈ (m.tree.node i).handlers,
        isExternal h = true ∧ hasEffect h = true ∧ h.event = name := by
  rw [nextEvents, hrunning, hreads]
  refine ⟨_, rfl, fun name => ?_⟩
  rw [Definition.mem_firsts]
  simp only [List.not_mem_nil, false_or, List.mem_map, List.mem_filter, List.mem_flatMap,
    Bool.and_eq_true, SortedSet.mem_toList]
  constructor
  · rintro ⟨h, ⟨⟨i, hi, hh⟩, hexternal, heffect⟩, hname⟩
    exact ⟨i, hi, h, hh, hexternal, heffect, hname⟩
  · rintro ⟨i, hi, h, hh, hexternal, heffect, hname⟩
    exact ⟨h, ⟨⟨i, hi, hh⟩, hexternal, heffect⟩, hname⟩

/-- The handler of a candidate with an effect answers an event from outside, if the event has a
name that is neither that of a completion nor that of a delay. -/
theorem answers_of_effect {c : StateConfig} {root : String} (h : Tree.build root c = .ok m.tree)
    {i : Nat} {handler : Handler} (hhandler : handler ∈ (m.tree.node i).handlers) {a : Candidate}
    (ha : a ∈ handler.candidates) (heffect : a.target.isSome = true ∨ a.actions ≠ [])
    (hname : handler.event ≠ "") (hdone : Event.isDone handler.event = false)
    (hdelayed : ∀ delay, (handler.event, delay) ∉ (m.tree.node i).delayedEvents) :
    isExternal handler = true ∧ hasEffect handler = true := by
  constructor
  · rw [isExternal, hdone]
    simp only [Bool.not_false, Bool.and_true, Bool.and_eq_true, Bool.not_eq_true',
      List.all_eq_true, Option.isNone_iff_eq_none]
    refine ⟨?_, fun b hb => ?_⟩
    · simpa using hname
    · cases hdelay : b.delay with
      | none => rfl
      | some delay => exact absurd (mem_delayedEvents h hhandler hb hdelay) (hdelayed delay)
  · refine List.any_eq_true.mpr ⟨a, ha, ?_⟩
    rw [Bool.or_eq_true]
    refine heffect.imp_right fun hne => ?_
    simpa using hne

end Machine

/-- Edges of an event that is answered are not shown as disabled, where edges have ids of
their own. -/
theorem View.not_disabled_of_mem {o : Overlay} {events : List String} {name : String}
    (hnodup : (o.graph.edges.map Edge.id).Nodup) (hname : name ∈ events) {edge : Edge}
    (hmem : edge ∈ o.graph.edges) (hevent : edge.event = some name) :
    (o.syncEnabled events).1.has edge.id .disabled = false := by
  refine Bool.eq_false_iff.mpr fun hmarked => ?_
  rw [Overlay.has_iff] at hmarked
  have hrun : (Call.enabled events).run? o = some (o.syncEnabled events) := rfl
  have hcarries := (Call.carries_run? hrun).mp hmarked
  rw [if_pos (by simp [Call.kinds])] at hcarries
  obtain ⟨_, other, hother, _, ⟨event, hunanswered, hnot⟩, hid⟩ := hcarries
  obtain rfl := List.inj_on_of_nodup_map hnodup hother hmem hid
  rw [hevent] at hunanswered
  cases hunanswered
  exact hnot hname

namespace Machine

variable {m : Machine} {s : State} {e : Event} {config : NodeSet} {selected : List Candidate}
  {a : Candidate}

/-- **No event that has an effect is shown as unavailable.**  If an event takes a candidate with
a target or with actions, and its name is neither empty nor that of a completion or a delay, then
it is among the events that the machine says it answers, and none of its edges is disabled when
these are shown in a graph whose edges have ids of their own. -/
theorem available_of_selected {c : StateConfig} {source : Json}
    (hload : Definition.ofConfig c source = .ok m.definition) (hrunning : s.done = false)
    (hreads : m.configuration s.value = .ok config)
    (hselect : (m.surroundings s.context e).select config e e.name = .ok selected)
    (ha : a ∈ selected) (heffect : a.target.isSome = true ∨ a.actions ≠ []) (hname : e.name ≠ "")
    (hdone : Event.isDone e.name = false)
    (hdelayed : ∀ i delay, (e.name, delay) ∉ (m.tree.node i).delayedEvents) :
    ∃ events, m.nextEvents s = .ok events ∧ e.name ∈ events ∧ m.canHandle s e.name = .ok true ∧
      (((Graph.ofTree m.tree).edges.map Edge.id).Nodup → ∀ o : Overlay,
        o.graph = Graph.ofTree m.tree → ∀ edge ∈ (Graph.ofTree m.tree).transitionEdges,
          edge.event = some e.name → (o.syncEnabled events).1.has edge.id .disabled = false) := by
  have hbuild := Definition.build_of_ofConfig hload
  have hC : Legal m.tree config := legal_of_reads hload hreads
  obtain ⟨hi, hmem, _⟩ := Selection.enabled_of_select hbuild hC.toCoherent hselect ha
  obtain ⟨handler, hhandler, hevent, hcandidate⟩ := handler_of_candidates hmem
  obtain ⟨events, hevents, hlisted⟩ := nextEvents_eq_ok (s := s) hrunning hreads
  have hanswers : isExternal handler = true ∧ hasEffect handler = true := by
    rw [← hevent] at hname hdone hdelayed
    exact answers_of_effect hbuild hhandler hcandidate heffect hname hdone (hdelayed a.source)
  have hin : e.name ∈ events :=
    (hlisted e.name).mpr ⟨a.source, hi, handler, hhandler, hanswers.1, hanswers.2, hevent⟩
  refine ⟨events, hevents, hin, ?_, fun hnodup o hgraph edge hedge hedgeEvent => ?_⟩
  · rw [canHandle, hevents]
    exact congrArg Except.ok (List.contains_iff_mem.mpr hin)
  · rw [← hgraph] at hnodup hedge
    exact not_disabled_of_mem hnodup hin (List.mem_filter.mp hedge).1 hedgeEvent

/-- The coin opens the gate, so it is listed, and no edge of it is disabled. -/
theorem available_of_selected_gateChart : ∃ (m : Machine) (s : State) (events : List String),
    Definition.ofConfig gateChart .null = .ok m.definition ∧ m.nextEvents s = .ok events ∧
    "COIN" ∈ events ∧ m.canHandle s "COIN" = .ok true ∧
    ∀ edge ∈ (Graph.ofTree m.tree).transitionEdges, edge.event = some "COIN" →
      ((Overlay.ofGraph (Graph.ofTree m.tree)).syncEnabled events).1.has edge.id .disabled =
        false := by
  obtain ⟨definition, hload, h⟩ := exists_of_run (x := Definition.ofConfig gateChart .null)
    (p := fun d => (ofDefinition d).initialState.toOption.any fun s =>
      !s.done && decide (((Graph.ofTree d.tree).edges.map Edge.id).Nodup) &&
      (List.range d.tree.size).all (fun i =>
        (d.tree.node i).delayedEvents.all fun event => event.1 != "COIN") &&
      ((ofDefinition d).configuration s.value).toOption.any fun config =>
        (((ofDefinition d).surroundings s.context (Event.named "COIN")).select config
          (Event.named "COIN") "COIN").toOption.any fun selected =>
            selected.any fun a => a.target.isSome) (by decide +kernel)
  obtain ⟨s, -, h⟩ := exists_of_run h
  simp only [Bool.and_eq_true, Bool.not_eq_true', decide_eq_true_eq, List.all_eq_true] at h
  obtain ⟨⟨⟨hrunning, hnodup⟩, hdelays⟩, hreads⟩ := h
  obtain ⟨config, hreads, h⟩ := exists_of_run hreads
  obtain ⟨selected, hselect, h⟩ := exists_of_run h
  obtain ⟨a, ha, htarget⟩ := List.any_eq_true.mp h
  have hdelayed : ∀ i delay, ("COIN", delay) ∉ ((ofDefinition definition).tree.node i).delayedEvents := by
    intro i delay hmem
    have hfree := hdelays i (List.mem_range.mpr (lt_size_of_delayed hmem)) _ hmem
    cases hfree
  obtain ⟨events, hevents, hin, hcan, hedges⟩ :=
    available_of_selected (m := ofDefinition definition) (e := Event.named "COIN") hload hrunning
      hreads hselect ha (Or.inl htarget) (by decide) (by decide) hdelayed
  exact ⟨ofDefinition definition, s, events, hload, hevents, hin, hcan, hedges hnodup _ rfl⟩

end Machine

end Statechart
