/-
Where the nodes of the armed timers are.

A node arms its timers when it is entered and cancels them when it is exited.  The commands
are collected while the steps run and carried out at the end, so that a node which is exited
and entered again within one macrostep has its timers cancelled and armed in one list.
`Guards` is what one step keeps, read ahead of that end: if the commands collected so far
were carried out, an active node would stand behind every timer (`Makes.guards`).

A macrostep starts from the configuration that the value of the state shows.  That may have
more nodes than the one that the value was written of, but not fewer, so that the next
macrostep takes over what the last one has left.  Another machine starts with timers of its
own only.
-/
import Statechart.Proofs.Run.States
import Statechart.Proofs.Timer.Registry

namespace Statechart

open Statechart.Tree Outcome Step TimerRegistry

variable {t : Tree} {C C' : NodeSet} {r : TimerRegistry} {key : TimerKey} {now n : Nat}

/-- A timer is one that a node arms. -/
def Awaits (t : Tree) (n : Nat) (key : TimerKey) : Prop :=
  ∃ delay, (key.event, delay) ∈ (t.node n).delayedEvents ∧ timerKey (t.node n) key.event = key

/-- Behind every armed timer there is a node of a set. -/
def Guards (t : Tree) (C : NodeSet) (r : TimerRegistry) : Prop :=
  ∀ key, r.contains key = true → ∃ n ∈ C, Awaits t n key

theorem Guards.mono (h : Guards t C r) (hsub : ∀ i ∈ C, i ∈ C') : Guards t C' r := by
  intro key hkey
  obtain ⟨n, hn, hawaits⟩ := h key hkey
  exact ⟨n, hsub n hn, hawaits⟩

/-- Without timers there is nothing to stand behind. -/
theorem guards_empty : Guards t C SortedMap.empty := nofun

/-- Disarming a timer leaves the others. -/
theorem Guards.cancel (h : Guards t C r) : Guards t C (r.cancel key) := by
  intro other hother
  obtain ⟨d, hd⟩ := contains_iff.mp hother
  rw [get?_cancel] at hd
  split at hd
  · cases hd
  · exact h other (contains_iff.mpr ⟨d, hd⟩)

/-- The nodes that are entered stand behind the timers that they arm. -/
theorem Guards.enter {entered : NodeSet} (h : Guards t C r) :
    Guards t (C.union entered)
      (r.apply (entered.toList.flatMap fun i => arms (t.node i)) now) := by
  intro key hkey
  rcases contains_apply_cases hkey with ⟨delay, harm⟩ | ⟨hkey, _⟩
  · obtain ⟨n, hn, harm⟩ := List.mem_flatMap.mp harm
    obtain ⟨⟨event, delay'⟩, hevent, harm⟩ := List.mem_map.mp harm
    cases harm
    exact ⟨n, SortedSet.mem_union.mpr (Or.inr (SortedSet.mem_toList.mp hn)), delay', hevent, rfl⟩
  · obtain ⟨n, hn, hawaits⟩ := h key hkey
    exact ⟨n, SortedSet.mem_union.mpr (Or.inl hn), hawaits⟩

/-- The nodes that are exited need not stand behind the timers that they cancel. -/
theorem Guards.exit {exits : List Nat} (h : Guards t C r)
    (hkept : ∀ i ∈ C, i ∉ exits → i ∈ C') :
    Guards t C' (r.apply (exits.flatMap fun i => cancels (t.node i)) now) := by
  intro key hkey
  rcases contains_apply_cases hkey with ⟨delay, harm⟩ | ⟨hkey, hnamed⟩
  · obtain ⟨n, _, harm⟩ := List.mem_flatMap.mp harm
    obtain ⟨_, _, harm⟩ := List.mem_map.mp harm
    cases harm
  · obtain ⟨n, hn, delay, hevent, hown⟩ := h key hkey
    refine ⟨n, hkept n hn fun hexit => ?_, delay, hevent, hown⟩
    have hcancel : .cancel (timerKey (t.node n) key.event) ∈
        exits.flatMap fun i => cancels (t.node i) :=
      List.mem_flatMap.mpr ⟨n, hexit, List.mem_map.mpr ⟨_, hevent, rfl⟩⟩
    exact hnamed _ hcancel hown

/-! ### Steps -/

namespace Step

variable {s s' : Step} {selected : List Candidate} {log : List Moment}

/-- **A step keeps an active node behind every timer**, if the timers were carried out. -/
theorem Makes.guards {d : Change} (h : Makes t s d s')
    (hkept : ∀ i ∈ s.config, i ∉ d.exits → i ∈ d.kept)
    (hs : Guards t s.config (r.apply s.timers now)) :
    Guards t s'.config (r.apply s'.timers now) := by
  rw [h.config, h.timers, apply_append, apply_append]
  refine (hs.exit fun i hi hexit => hkept i hi fun hexit' => hexit ?_).enter
  rw [List.mem_reverse]
  exact SortedSet.mem_toList.mpr hexit'

theorem Takes.guards (h : Takes t s selected s' log)
    (hs : Guards t s.config (r.apply s.timers now)) :
    Guards t s'.config (r.apply s'.timers now) := by
  obtain ⟨moves, _, _, hmakes⟩ := h.makes
  refine hmakes.guards (fun i hi hexit => ?_) hs
  rw [Change.of, SortedSet.mem_filter, decide_eq_true_eq]
  exact ⟨hi, hexit⟩

theorem Surroundings.Settles.guards {e : Surroundings} (h : e.Settles s s' log)
    (hs : Guards e.tree s.config (r.apply s.timers now)) :
    Guards e.tree s'.config (r.apply s'.timers now) := by
  induction h with
  | done _ => exact hs
  | rest _ _ => exact hs
  | step _ _ _ htakes _ ih => exact ih (htakes.guards hs)

end Step

/-! ### Sessions -/

namespace Session

variable {s : Session} {state : State} {e : Event} {log : List Moment}

/-- The runs of a session: it is started with a machine that has been loaded, and then events
are sent, contexts updated, timers fired and machines replaced, at any times.  What fails is
part of a run.  Previews are not, because they give no session back. -/
inductive Career : Session → Prop
  | start {m : Machine} {s : Session} {now : Nat} {c : StateConfig} {source : Json}
      (load : Definition.ofConfig c source = .ok m.definition)
      (start : Session.start m now = .ok s) : Career s
  | send {s : Session} (e : Event) (now : Nat) (career : Career s) : Career (s.send e now).1
  | context {s : Session} (patch : Json) (career : Career s) : Career (s.updateContext patch).1
  | fire {s : Session} (key : TimerKey) (now : Nat) (career : Career s) :
      Career (s.fireTimer key now).1
  | replace {s : Session} {m : Machine} {c : StateConfig} {source : Json} (now : Nat)
      (load : Definition.ofConfig c source = .ok m.definition) (career : Career s) :
      Career (s.replaceMachine m now).1

/-- A session whose timers are in order: the value of its state was written of a coherent
configuration that has a node behind every timer. -/
structure Attended (s : Session) : Prop where
  load : ∃ c source, Definition.ofConfig c source = .ok s.machine.definition
  history : MadeFrom s.machine.tree (Coherent s.machine.tree) s.state.history
  guards : ∃ C, Coherent s.machine.tree C ∧
    StateValue.ofConfiguration s.machine.tree C = .ok s.state.value ∧
      Guards s.machine.tree C s.timers

namespace Attended

theorem wellFormed (h : Attended s) : s.machine.tree.WellFormed ∧
    (s.machine.tree.node Tree.root).id = s.machine.id := by
  obtain ⟨c, source, hload⟩ := h.load
  exact Machine.wellFormed_of_ofConfig hload

theorem standing (h : Attended s) : Machine.Standing s.machine s.state := by
  obtain ⟨C, hC, hv, _⟩ := h.guards
  exact ⟨⟨C, hC, hv⟩, h.history⟩

theorem start {m : Machine} {now : Nat} {c : StateConfig} {source : Json}
    (hload : Definition.ofConfig c source = .ok m.definition)
    (h : Session.start m now = .ok s) : Attended s := by
  obtain ⟨state, hstate, h⟩ := bind_eq_ok.mp h
  cases h
  have w : m.tree.WellFormed := (Machine.wellFormed_of_ofConfig hload).1
  obtain ⟨rest, hsettles, hfinish⟩ := Machine.initialState_eq_ok hstate
  obtain ⟨hvalue, _, htimers⟩ := Machine.finish_eq_ok hfinish
  have hfirst : Guards m.tree m.initialStep.config
      (TimerRegistry.apply SortedMap.empty m.initialStep.timers now) :=
    makes_initialStep.guards (fun i hi => absurd hi SortedSet.not_mem_empty) guards_empty
  refine ⟨⟨c, source, hload⟩, (Machine.standing_initialState w hstate).history, rest.config,
    (hsettles.orderly w (Machine.orderly_initialStep w)).config, hvalue, ?_⟩
  dsimp only
  rw [htimers]
  exact hsettles.guards hfirst

/-- Taking over a state to which an event leads. -/
theorem leads (h : Attended s) (hleads : Machine.Leads s.machine s.state e state log) :
    Attended (s.commit state now) := by
  have w := h.wellFormed.1
  have hstanding := hleads.standing w h.standing
  refine ⟨h.load, hstanding.history, ?_⟩
  obtain ⟨C, hC, hv, hguards⟩ := h.guards
  cases hleads with
  | ignored => exact ⟨C, hC, hv, hguards⟩
  | @steps config step rest selected _ hsteps hfinish =>
      obtain ⟨hvalue, _, htimers⟩ := Machine.finish_eq_ok hfinish
      have hshown := (Machine.shown_of_configuration w hv hsteps.reads).1
      have hstart : Guards s.machine.tree config (s.timers.apply [] now) :=
        hguards.mono fun i hi => (hshown i).mpr (shows_of_mem w hC hi)
      refine ⟨rest.config, (hsteps.orderly w h.standing).config, hvalue, ?_⟩
      rw [commit, htimers]
      exact hsteps.settles.guards (hsteps.takes.guards hstart)

theorem send (h : Attended s) : Attended (s.send e now).1 := by
  unfold Session.send
  cases hpreview : s.preview e with
  | error err => exact h
  | ok state => exact h.leads (Machine.leads_of_transition hpreview)

theorem updateContext (h : Attended s) {patch : Json} : Attended (s.updateContext patch).1 := by
  unfold Session.updateContext
  split
  · exact ⟨h.load, h.history, h.guards⟩
  · exact h

theorem fireTimer (h : Attended s) : Attended (s.fireTimer key now).1 := by
  unfold Session.fireTimer
  split
  · obtain ⟨C, hC, hv, hguards⟩ := h.guards
    have hdisarmed : Attended { s with timers := s.timers.cancel key } :=
      ⟨h.load, h.history, C, hC, hv, hguards.cancel⟩
    exact hdisarmed.send
  · exact h

theorem replaceMachine (h : Attended s) {m : Machine} {c : StateConfig} {source : Json}
    (hload : Definition.ofConfig c source = .ok m.definition) :
    Attended (s.replaceMachine m now).1 := by
  unfold Session.replaceMachine
  cases hstart : Session.start m now with
  | error err => exact h
  | ok fresh => exact start hload hstart

/-- A node of the configuration that the value was written of is above an active one, or is
active itself. -/
theorem exists_active (h : Attended s) (hC : Coherent s.machine.tree C)
    (hv : StateValue.ofConfiguration s.machine.tree C = .ok s.state.value) (hn : n ∈ C) :
    ∃ k < s.machine.tree.size, (s.machine.tree.node k).id ∈ s.activeIds ∧
      s.machine.tree.Within k n := by
  obtain ⟨w, hid⟩ := h.wellFormed
  have hshows := shows_of_mem w hC hn
  obtain ⟨k, hk, hends⟩ := exists_end w fun i hi hkind =>
    (StateValue.exists_ofNode_iff w).mp ⟨_, hv⟩ i (hshows.trans hi) hkind
  have hshown : Shows s.machine.tree C Tree.root k := hshows.trans hk
  refine ⟨k, hshown.lt_size w, ?_, hk.within w⟩
  rw [activeIds, State.activeIds, ← hid, ← SortedSet.mem_toList, StateValue.mem_activeIds w hv]
  exact ⟨k, hshown, hends, rfl⟩

end Attended

theorem Career.attended (h : Career s) : Attended s := by
  induction h with
  | start hload hstart => exact .start hload hstart
  | send e now _ ih => exact ih.send
  | context patch _ ih => exact ih.updateContext
  | fire key now _ ih => exact ih.fireTimer
  | replace now hload _ ih => exact ih.replaceMachine hload

/-- **No timer outlives its state.**  In every run an armed timer is one that a node of the
machine at work arms, and the node is active or above an active one. -/
theorem awaited_of_armed (h : Career s) (harmed : s.timers.contains key = true) :
    ∃ n < s.machine.tree.size, key.node = (s.machine.tree.node n).id ∧
      (∃ delay, (key.event, delay) ∈ (s.machine.tree.node n).delayedEvents) ∧
      ∃ k < s.machine.tree.size, (s.machine.tree.node k).id ∈ s.activeIds ∧
        s.machine.tree.Within k n := by
  have hattended := h.attended
  obtain ⟨C, hC, hv, hguards⟩ := hattended.guards
  obtain ⟨n, hn, delay, hevent, hown⟩ := hguards key harmed
  refine ⟨n, hC.inTree n hn, ?_, ⟨delay, hevent⟩, hattended.exists_active hC hv hn⟩
  rw [← hown]
  rfl

/-- A lamp that goes off by itself, and has two brightnesses. -/
def lampChart : StateConfig :=
  { StateConfig.blank with
    id := some "m"
    initial := some "off"
    states := [
      ("off", { StateConfig.blank with
        on := [("TURN", [{ CandidateConfig.idle with target := some "on" }])] }),
      ("on", { StateConfig.blank with
        initial := some "dim"
        states := [("dim", StateConfig.blank), ("bright", StateConfig.blank)]
        after := [("1000", [{ CandidateConfig.idle with target := some "off" }])] })] }

/-- The timer of the lamp. -/
def lampTimer : TimerKey := ⟨"m.on", Event.afterName 1000 "m.on"⟩

/-- The lamp is turned on, and its timer is that of a node above an active one. -/
theorem awaited_of_armed_lampChart : ∃ s : Session, Career s ∧
    s.timers.contains lampTimer = true ∧ "m.on" ∉ s.activeIds ∧
      ∃ n < s.machine.tree.size, lampTimer.node = (s.machine.tree.node n).id ∧
        (∃ delay, (lampTimer.event, delay) ∈ (s.machine.tree.node n).delayedEvents) ∧
        ∃ k < s.machine.tree.size, (s.machine.tree.node k).id ∈ s.activeIds ∧
          s.machine.tree.Within k n := by
  have h : (Definition.ofConfig lampChart .null).toOption.any (fun d =>
      (Session.start (Machine.ofDefinition d) 0).toOption.any fun s =>
        (s.send (Event.named "TURN") 0).1.timers.contains lampTimer &&
          decide ("m.on" ∉ (s.send (Event.named "TURN") 0).1.activeIds)) = true := by
    decide +kernel
  obtain ⟨d, hd, h⟩ := exists_of_run h
  obtain ⟨s, hs, h⟩ := exists_of_run h
  obtain ⟨harmed, hinactive⟩ := Bool.and_eq_true_iff.mp h
  have hcareer : Career (s.send (Event.named "TURN") 0).1 :=
    .send (Event.named "TURN") 0 (.start hd hs)
  exact ⟨_, hcareer, harmed, of_decide_eq_true hinactive, awaited_of_armed hcareer harmed⟩

end Session

end Statechart
