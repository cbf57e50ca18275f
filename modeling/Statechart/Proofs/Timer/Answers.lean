/-
Who answers a timer.

A timer that is fired sends an event with a name that was made up for one node and one delay.
That is all that ties the event to its timer: it is selected for like any other, by every active
leaf and all nodes above.  The node behind the timer comes from the run so far (`Attended`), the
name of the event from the handlers of the tree, and the answer from the candidates that a
selection may propose.  None of them depends on the configuration in which the timer is fired.

What a definition writes under `on` may be any name, also one that looks like this.
`PlainEvents` leaves those out; without it a node could answer the timer of another.
-/
import Statechart.Proofs.Run.Armed
import Statechart.Proofs.Tree.Handlers

namespace Statechart

open Statechart.Tree Outcome

namespace Session

variable {s : Session} {c : StateConfig} {source : Json} {key : TimerKey}

/-- The key of an armed timer is made of the delay and of the node that arms it. -/
theorem Attended.key_of_armed (h : Attended s) (harmed : s.timers.contains key = true) :
    ∃ n < s.machine.tree.size, ∃ delay ≤ Text.wordLimit,
      key = ⟨(s.machine.tree.node n).id, Event.afterName delay (s.machine.tree.node n).id⟩ := by
  obtain ⟨c, source, hload⟩ := h.load
  obtain ⟨C, hC, -, hguards⟩ := h.guards
  obtain ⟨n, hn, delay, hevent, hown⟩ := hguards key harmed
  obtain ⟨hname, hdelay⟩ := event_of_delayed (Definition.build_of_ofConfig hload) hevent
  refine ⟨n, hC.inTree n hn, delay, hdelay, ?_⟩
  rw [← hown, hname]
  rfl

/-- What an event that waits for a delay selects is declared by the node that waits. -/
theorem declared_of_select {d : Definition} {n delay : Nat} {scope : GuardScope}
    {config : NodeSet} {selected : List Candidate} {a : Candidate}
    (hload : Definition.ofConfig c source = .ok d) (hplain : c.PlainEvents) (hn : n < d.tree.size)
    (hselect : Selection.select d.tree scope (Event.afterName delay (d.tree.node n).id) config =
      .ok selected) (ha : a ∈ selected) : Declared d.tree c n delay a := by
  obtain ⟨leaf, -, -, i, -, hi⟩ := Selection.proposed_of_select hselect ha
  exact declared_of_candidates (Definition.build_of_ofConfig hload) hplain hn hi

/-- **The name of a delayed event identifies its timer.**  Delay and id can be read from it, and
no completion has such a name.  In every run of a machine with plain events the event of an armed
timer belongs to one node and one delay, and whatever it selects, in any configuration, the node
has declared under that delay. -/
theorem answered_of_armed :
    (∀ delay id, delay ≤ Text.wordLimit →
      Event.delay? (Event.afterName delay id) = some delay) ∧
    (∀ delay id delay' id', Event.afterName delay id = Event.afterName delay' id' →
      delay = delay' ∧ id = id') ∧
    (∀ delay id, Event.isDone (Event.afterName delay id) = false ∧
      ∀ id', Event.afterName delay id ≠ Event.doneName id') ∧
    ∀ {s : Session} {c : StateConfig} {source : Json} {key : TimerKey}, Career s →
      Definition.ofConfig c source = .ok s.machine.definition → c.PlainEvents →
      s.timers.contains key = true →
      ∃ n < s.machine.tree.size, ∃ delay ≤ Text.wordLimit,
        key.node = (s.machine.tree.node n).id ∧
        key.event = Event.afterName delay (s.machine.tree.node n).id ∧
        Event.delay? key.event = some delay ∧
        ∀ scope config selected,
          Selection.select s.machine.tree scope key.event config = .ok selected →
          ∀ a ∈ selected, Declared s.machine.tree c n delay a := by
  refine ⟨fun delay id => Event.delay?_afterName, fun _ _ _ _ => Event.afterName_inj,
    fun delay id => ⟨Event.isDone_afterName, fun id' => Event.afterName_ne_doneName⟩, ?_⟩
  intro s c source key hcareer hload hplain harmed
  obtain ⟨n, hn, delay, hdelay, rfl⟩ := hcareer.attended.key_of_armed harmed
  refine ⟨n, hn, delay, hdelay, rfl, rfl, Event.delay?_afterName hdelay, ?_⟩
  intro scope config selected hselect a ha
  exact declared_of_select hload hplain hn hselect ha

/-- Two states side by side that wait equally long.  One has a parenthesis in its id and blanks
around its delay. -/
def pairChart : StateConfig :=
  { StateConfig.blank with
    id := some "m"
    parallel := true
    states := [
      ("a)", { StateConfig.blank with
        initial := some "x"
        states := [
          ("x", { StateConfig.blank with
            on := [("GO", [{ CandidateConfig.idle with target := some "y" }])] }),
          ("y", StateConfig.blank)]
        after := [(" 100 ", [{ CandidateConfig.idle with target := some ".y" }])] }),
      ("b", { StateConfig.blank with
        after := [("100", [{ CandidateConfig.idle with actions := ["beep"] }])] })] }

/-- The timer of the state with the parenthesis. -/
def pairTimer : TimerKey := ⟨"m.a)", Event.afterName 100 "m.a)"⟩

theorem plainEvents_pairChart : pairChart.PlainEvents := by
  have hblank : StateConfig.blank.PlainEvents := .mk nofun nofun
  refine .mk nofun (List.forall_mem_cons.mpr ⟨?_, List.forall_mem_cons.mpr ⟨?_, nofun⟩⟩)
  · refine .mk nofun (List.forall_mem_cons.mpr ⟨?_, List.forall_mem_cons.mpr ⟨hblank, nofun⟩⟩)
    exact .mk (by decide) nofun
  · exact .mk nofun nofun

/-- Both states arm a timer, and only the one with the parenthesis answers its own. -/
theorem answered_of_armed_pairChart : ∃ s : Session, Career s ∧ pairChart.PlainEvents ∧
    s.timers.contains pairTimer = true ∧
    s.timers.contains ⟨"m.b", Event.afterName 100 "m.b"⟩ = true ∧
    ∃ n, (s.machine.tree.node n).id = "m.a)" ∧ ∃ config a selected,
      Selection.select s.machine.tree ⟨SortedMap.empty, .null, Event.named pairTimer.event⟩
        pairTimer.event config = .ok (a :: selected) ∧
      ∀ b ∈ a :: selected, Declared s.machine.tree pairChart n 100 b := by
  have h : (Definition.ofConfig pairChart .null).toOption.any (fun d =>
      (Session.start (Machine.ofDefinition d) 0).toOption.any fun s =>
        s.timers.contains pairTimer &&
          (s.timers.contains ⟨"m.b", Event.afterName 100 "m.b"⟩ &&
          (s.machine.configuration s.state.value).toOption.any fun config =>
            (Selection.select s.machine.tree
              ⟨SortedMap.empty, .null, Event.named pairTimer.event⟩ pairTimer.event
              config).toOption.any fun selected => !selected.isEmpty)) = true := by
    decide +kernel
  obtain ⟨d, hd, h⟩ := exists_of_run h
  obtain ⟨s, hs, h⟩ := exists_of_run h
  obtain ⟨harmed, h⟩ := Bool.and_eq_true_iff.mp h
  obtain ⟨hother, h⟩ := Bool.and_eq_true_iff.mp h
  obtain ⟨config, -, h⟩ := exists_of_run h
  obtain ⟨selected, hselect, hsome⟩ := exists_of_run h
  have hload : Definition.ofConfig pairChart .null = .ok s.machine.definition := by
    obtain ⟨state, -, hs⟩ := bind_eq_ok.mp hs
    cases hs
    exact hd
  have hcareer : Career s := .start hd hs
  obtain ⟨n, -, delay, -, hnode, -, hdelay, hanswers⟩ :=
    answered_of_armed.2.2.2 hcareer hload plainEvents_pairChart harmed
  have hread : Event.delay? pairTimer.event = some 100 := by decide +kernel
  cases hread.symm.trans hdelay
  cases selected with
  | nil => cases hsome
  | cons a rest =>
      exact ⟨s, hcareer, plainEvents_pairChart, harmed, hother, n, hnode.symm, config, a, rest,
        hselect, hanswers _ _ _ hselect⟩

end Session

end Statechart
