/-
The chronicle of a session, and what it says of the timers.

A session is started and then sends events, updates its context and fires timers, in any
order and at any times.  A chronicle is such a run with the log of all that has happened.
Previews are no part of it, because they give no session back, and an event that fails
leaves no trace.

The log accounts for every timer: it is armed as long as its node was entered, has not been
exited since and the timer has not been fired since.  It accounts for the active nodes too
as long as the moves are tame.  After another move the value of the state can show a node
that has been exited, and a node that is shown has lost its timers in this way only.
-/
import Statechart.Proofs.Run.Since
import Statechart.Proofs.Run.States
import Statechart.Proofs.Timer.Firing

namespace Statechart

open Statechart.Tree Outcome Step TimerRegistry

namespace Session

/-- What happens when an event is sent. -/
def sendLog (s : Session) (e : Event) : List Moment :=
  match s.preview e with
  | .ok _ => s.machine.transitionLog s.state e
  | .error _ => []

/-- What happens when a timer is fired. -/
def fireLog (s : Session) (key : TimerKey) : List Moment :=
  if s.timers.contains key then .fired key :: s.sendLog (Event.named key.event) else []

/-- The runs of a session, with the log of all that has happened. -/
inductive Chronicle (m : Machine) : Session → List Moment → Prop
  | start {s : Session} {now : Nat} (start : Session.start m now = .ok s) :
      Chronicle m s m.initialLog
  | send {s : Session} {log : List Moment} (e : Event) (now : Nat) (run : Chronicle m s log) :
      Chronicle m (s.send e now).1 (log ++ s.sendLog e)
  | context {s : Session} {log : List Moment} (patch : Json) (run : Chronicle m s log) :
      Chronicle m (s.updateContext patch).1 log
  | fire {s : Session} {log : List Moment} (key : TimerKey) (now : Nat) (run : Chronicle m s log) :
      Chronicle m (s.fireTimer key now).1 (log ++ s.fireLog key)

end Session

namespace Machine

variable {m : Machine} {s s' : State} {e : Event} {log chunk : List Moment}

/-- What the log says of the value of a state: it was written of a legal configuration, of
the nodes that were entered and not exited since. -/
def Shown (m : Machine) (s : State) (log : List Moment) : Prop :=
  ∃ C, Legal m.tree C ∧ StateValue.ofConfiguration m.tree C = .ok s.value ∧ Tracks C log

/-- A first state shows what has been entered. -/
theorem shown_initialState (w : m.tree.WellFormed) (h : m.initialState = .ok s)
    (htame : TameLog m.tree m.initialLog) : Shown m s m.initialLog := by
  obtain ⟨rest, hsettles, hfinish⟩ := initialState_eq_ok h
  have hempty : Tracks SortedSet.empty [] := fun n =>
    ⟨fun hn => absurd hn SortedSet.not_mem_empty, fun hn => absurd hn not_lasting_nil⟩
  have hfirst : Tracks m.initialStep.config ([] ++ (firstChange m.tree).moments []) := by
    rw [makes_initialStep.config]
    refine Change.tracks (fun i => ?_) hempty
    exact ⟨fun hi => absurd hi SortedSet.not_mem_empty, fun hi => hi.1⟩
  refine ⟨rest.config, ?_, (finish_eq_ok hfinish).1, hsettles.tracks hfirst⟩
  exact hsettles.legal w (orderly_initialStep w) (tameLog_append.mp htame).2 (legal_initialStep w)

/-- Tame moves keep the value of the state up with the log. -/
theorem Leads.shown (w : m.tree.WellFormed) (hs : Standing m s) (h : Leads m s e s' chunk)
    (htame : TameLog m.tree chunk) (hshown : Shown m s log) : Shown m s' (log ++ chunk) := by
  cases h with
  | ignored => rwa [List.append_nil]
  | @steps config step rest selected _ hsteps hfinish =>
      obtain ⟨C, hC, hv, htracks⟩ := hshown
      obtain rfl := configuration_eq_of_legal w hC hv hsteps.reads
      refine ⟨rest.config, hsteps.legal w hs htame, (finish_eq_ok hfinish).1, ?_⟩
      rw [← List.append_assoc]
      exact hsteps.settles.tracks (hsteps.takes.tracks htracks)

end Machine

namespace Session

variable {m : Machine} {s : Session} {log chunk : List Moment} {e : Event} {key : TimerKey}
  {now : Nat}

/-- What the log says of a session. -/
structure Recounts (m : Machine) (s : Session) (log : List Moment) : Prop where
  machine : s.machine = m
  standing : Machine.Standing m s.state
  /-- A timer is armed as long as it lasts. -/
  armed : ∀ n event delay, n < m.tree.size → (event, delay) ∈ (m.tree.node n).delayedEvents →
    (s.timers.contains (timerKey (m.tree.node n) event) = true ↔
      Lasting n (disarming m.tree n event) log)
  /-- Tame moves keep the value up with the log. -/
  shown : TameLog m.tree log → Machine.Shown m s.state log
  tame : Tidy m.tree → TameLog m.tree log

theorem recounts_start (w : m.tree.WellFormed) (h : Session.start m now = .ok s) :
    Recounts m s m.initialLog := by
  obtain ⟨state, hstate, h⟩ := bind_eq_ok.mp h
  cases h
  refine ⟨rfl, Machine.standing_initialState w hstate, fun n event delay hn hevent => ?_,
    Machine.shown_initialState w hstate, fun htidy => Machine.tame_initialLog w htidy hstate⟩
  have hempty : (SortedMap.empty : TimerRegistry).contains (timerKey (m.tree.node n) event) =
      true ↔ Lasting n (disarming m.tree n event) [] :=
    ⟨nofun, fun h => absurd h not_lasting_nil⟩
  rw [Machine.timers_initialState hstate, ← List.nil_append m.initialLog]
  exact contains_apply_commands w hn hevent hempty

/-- Taking a state over, when the log goes on with what led to it. -/
theorem Recounts.leads (w : m.tree.WellFormed) (h : Recounts m s log) {state : State}
    (hleads : Machine.Leads m s.state e state chunk) :
    Recounts m (s.commit state now) (log ++ chunk) := by
  refine ⟨h.machine, hleads.standing w h.standing, fun n event delay hn hevent => ?_,
    fun htame => ?_, fun htidy => ?_⟩
  · have hregistry : (s.commit state now).timers =
        s.timers.apply (chunk.flatMap (commands m.tree)) now := by
      rw [← hleads.timers]
      rfl
    rw [hregistry]
    exact contains_apply_commands w hn hevent (h.armed n event delay hn hevent)
  · obtain ⟨hlog, hchunk⟩ := tameLog_append.mp htame
    exact hleads.shown w h.standing hchunk (h.shown hlog)
  · exact tameLog_append.mpr ⟨h.tame htidy, hleads.tame w h.standing htidy⟩

theorem Recounts.send (w : m.tree.WellFormed) (h : Recounts m s log) :
    Recounts m (s.send e now).1 (log ++ s.sendLog e) := by
  unfold Session.send sendLog
  cases hpreview : s.preview e with
  | error err => rwa [List.append_nil]
  | ok state =>
      rw [preview, h.machine] at hpreview
      rw [h.machine]
      exact h.leads w (Machine.leads_of_transition hpreview)

/-- Disarming a timer, when the log goes on with its being fired. -/
theorem Recounts.disarm (w : m.tree.WellFormed) (h : Recounts m s log) :
    Recounts m { s with timers := s.timers.cancel key } (log ++ [.fired key]) := by
  refine ⟨h.machine, h.standing, fun n event delay hn hevent => ?_, fun htame => ?_,
    fun htidy => tameLog_append.mpr ⟨h.tame htidy, fun x D hx => ?_⟩⟩
  · have hregistry : s.timers.cancel key =
        s.timers.apply ([Moment.fired key].flatMap (commands m.tree)) 0 := rfl
    rw [hregistry]
    exact contains_apply_commands w hn hevent (h.armed n event delay hn hevent)
  · obtain ⟨C, hC, hv, htracks⟩ := h.shown (tameLog_append.mp htame).1
    refine ⟨C, hC, hv, fun n => ?_⟩
    rw [htracks n, lasting_concat]
    simp
  · cases List.mem_singleton.mp hx

theorem Recounts.fire (w : m.tree.WellFormed) (h : Recounts m s log) :
    Recounts m (s.fireTimer key now).1 (log ++ s.fireLog key) := by
  unfold fireTimer fireLog
  split
  · rw [List.append_cons]
    exact (h.disarm w).send w
  · rwa [List.append_nil]

theorem Recounts.updateContext (h : Recounts m s log) {patch : Json} :
    Recounts m (s.updateContext patch).1 log := by
  unfold Session.updateContext
  split
  · exact ⟨h.machine, ⟨h.standing.value, h.standing.history⟩, h.armed, h.shown, h.tame⟩
  · exact h

/-- **What a chronicle says of its session.** -/
theorem Chronicle.recounts (w : m.tree.WellFormed) (h : Chronicle m s log) : Recounts m s log := by
  induction h with
  | start hstart => exact recounts_start w hstart
  | send e now _ ih => exact ih.send w
  | context patch _ ih => exact ih.updateContext
  | fire key now _ ih => exact ih.fire w

/-- **Which timers of the nodes that are shown are armed.**  In every run of a machine that
has been loaded such a timer is armed exactly when its node, since it was last entered, has
neither been exited nor had the timer fired.  As long as the moves of the run are tame no
node that is shown has been exited since, so that a timer is lost by being fired only; and
all moves are tame if no transition of the tree has a parallel domain that is not its
target. -/
theorem armed_iff {c : StateConfig} {source : Json}
    (hload : Definition.ofConfig c source = .ok m.definition) (hrun : Chronicle m s log)
    {config : NodeSet} (hreads : m.configuration s.state.value = .ok config) {n : Nat}
    (hn : n ∈ config) {event : String} {delay : Nat}
    (hevent : (event, delay) ∈ (m.tree.node n).delayedEvents) :
    (s.timers.contains (timerKey (m.tree.node n) event) = true ↔
      ∃ post, since n log = some post ∧ .exited n ∉ post ∧
        .fired (timerKey (m.tree.node n) event) ∉ post) ∧
    (TameLog m.tree log → ∃ post, since n log = some post ∧ .exited n ∉ post ∧
      (s.timers.contains (timerKey (m.tree.node n) event) = true ↔
        .fired (timerKey (m.tree.node n) event) ∉ post)) ∧
    (Tidy m.tree → TameLog m.tree log) := by
  obtain ⟨w, _⟩ := Machine.wellFormed_of_ofConfig hload
  have hrecounts := hrun.recounts w
  have harmed : s.timers.contains (timerKey (m.tree.node n) event) = true ↔
      ∃ post, since n log = some post ∧ .exited n ∉ post ∧
        .fired (timerKey (m.tree.node n) event) ∉ post := by
    rw [hrecounts.armed n event delay (lt_size_of_delayed hevent) hevent]
    simp [Lasting, disarming]
  refine ⟨harmed, fun htame => ?_, hrecounts.tame⟩
  obtain ⟨C, hC, hv, htracks⟩ := hrecounts.shown htame
  obtain rfl := Machine.configuration_eq_of_legal w hC hv hreads
  obtain ⟨post, hpost, hexited⟩ := (htracks n).mp hn
  have hexited : .exited n ∉ post := hexited _ (List.mem_singleton.mpr rfl)
  refine ⟨post, hpost, hexited, ?_⟩
  rw [harmed, hpost]
  simp only [Option.some.injEq, exists_eq_left', hexited, not_false_eq_true, true_and]

/-! ### A run that loses a timer -/

/-- A parallel root that goes to one of its own regions, while the other one waits. -/
def waitingChart : StateConfig :=
  { StateConfig.blank with
    id := some "m"
    type := some .parallel
    states := [
      ("a", StateConfig.blank),
      ("b", { StateConfig.blank with
        after := [("1000", [{ CandidateConfig.idle with actions := ["tick"] }])] })]
    on := [("GO", [{ CandidateConfig.idle with target := some ".a" }])] }

/-- What the second region waits for. -/
def awaited : String := Event.afterName 1000 "m.b"

/-- The chart is started and sent the event: the region that waits is exited and not entered
again, but shown. -/
theorem exists_waiting : ∃ (m : Machine) (s : Session) (log : List Moment) (config : NodeSet),
    Definition.ofConfig waitingChart .null = .ok m.definition ∧ Chronicle m s log ∧
      m.configuration s.state.value = .ok config ∧ 2 ∈ config ∧
      (awaited, 1000) ∈ (m.tree.node 2).delayedEvents ∧
      since 2 log = some [.moved 1 0, .exited 2, .exited 1, .entered 1] ∧
      s.timers.contains (timerKey (m.tree.node 2) awaited) = false := by
  have h : (Definition.ofConfig waitingChart .null).toOption.any (fun d =>
      (Session.start (Machine.ofDefinition d) 0).toOption.any fun s =>
        let e := Event.named "GO"
        let read := (Machine.ofDefinition d).configuration (s.send e 0).1.state.value
        read.toOption.any fun config =>
          decide (2 ∈ config ∧ (awaited, 1000) ∈ (d.tree.node 2).delayedEvents ∧
            since 2 ((Machine.ofDefinition d).initialLog ++ s.sendLog e) =
              some [.moved 1 0, .exited 2, .exited 1, .entered 1] ∧
            (s.send e 0).1.timers.contains (timerKey (d.tree.node 2) awaited) = false)) = true := by
    decide +kernel
  obtain ⟨d, hd, h⟩ := exists_of_run h
  obtain ⟨s, hs, h⟩ := exists_of_run h
  obtain ⟨config, hconfig, h⟩ := exists_of_run h
  exact ⟨Machine.ofDefinition d, _, _, config, hd, .send (Event.named "GO") 0 (.start hs), hconfig,
    of_decide_eq_true h⟩

/-- The timer of the region is lost, because it has been exited since it was entered. -/
theorem armed_iff_waitingChart : ∃ (m : Machine) (s : Session) (log : List Moment),
    Definition.ofConfig waitingChart .null = .ok m.definition ∧ Chronicle m s log ∧
      (∃ config, m.configuration s.state.value = .ok config ∧ 2 ∈ config) ∧
      s.timers.contains (timerKey (m.tree.node 2) awaited) ≠ true := by
  obtain ⟨m, s, log, config, hload, hrun, hreads, hn, hevent, hsince, _⟩ := exists_waiting
  refine ⟨m, s, log, hload, hrun, ⟨config, hreads, hn⟩, fun harmed => ?_⟩
  obtain ⟨post, hpost, hexited, _⟩ := (armed_iff hload hrun hreads hn hevent).1.mp harmed
  rw [hsince] at hpost
  cases hpost
  exact hexited (by decide)

/-- Sessions do lose timers of nodes that are shown: the run of the waiting chart. -/
theorem exists_lost_waitingChart : ¬ ∀ (m : Machine) (c : StateConfig) (source : Json)
    (s : Session) (log : List Moment) (config : NodeSet) (n : Nat) (event : String) (delay : Nat),
    Definition.ofConfig c source = .ok m.definition → Chronicle m s log →
      m.configuration s.state.value = .ok config → n ∈ config →
      (event, delay) ∈ (m.tree.node n).delayedEvents →
      s.timers.contains (timerKey (m.tree.node n) event) = true ∨
        ∃ post, since n log = some post ∧ .fired (timerKey (m.tree.node n) event) ∈ post := by
  intro hnever
  obtain ⟨m, s, log, config, hload, hrun, hreads, hn, hevent, hsince, hlost⟩ := exists_waiting
  rcases hnever m _ _ s log config 2 awaited 1000 hload hrun hreads hn hevent with
    harmed | ⟨post, hpost, hfired⟩
  · rw [hlost] at harmed
    cases harmed
  · rw [hsince] at hpost
    cases hpost
    simp at hfired

end Session

end Statechart
