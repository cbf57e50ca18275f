/-
Timers that are fired, one alone and those that are due together.

A service lists the timers that are due at a moment once and fires them in turn, each at
its own clock.  A firing runs a whole macrostep, which may cancel the timers that come
later in the list and arm them again.  When such a timer has its turn only one thing is
asked, whether it is armed, so that it is delivered before its new deadline.

Of everything that the firings of a batch do to one timer the last thing counts
(`get?_fireAll`), which says exactly when a timer is delivered early and when not at all.
-/
import Statechart.Proofs.Outcome
import Statechart.Proofs.Timer.Registry
import Statechart.Service.Basic

namespace Statechart

open TimerRegistry Outcome

namespace Session

variable {s : Session} {e : Event} {key other : TimerKey} {now : Nat}

/-! ### One timer -/

/-- What an event does to the timers; one that fails does nothing. -/
def sends (s : Session) (e : Event) : List TimerCommand :=
  match s.preview e with
  | .ok state => state.timers
  | .error _ => []

/-- What firing a timer does to the timers, but that it is disarmed. -/
def answers (s : Session) (key : TimerKey) : List TimerCommand :=
  if s.timers.contains key then s.sends (Event.named key.event) else []

theorem timers_send : (s.send e now).1.timers = s.timers.apply (s.sends e) now := by
  unfold send sends
  cases s.preview e <;> rfl

/-- Firing a timer leaves another one to what the macrostep does to it. -/
theorem get?_fireTimer (hother : other ≠ key) :
    (s.fireTimer key now).1.timers.get? other =
      match lastFor other (s.answers key) with
      | some c => deadline now c
      | none => s.timers.get? other := by
  unfold fireTimer answers
  split
  · have hsend : (({ s with timers := s.timers.cancel key } : Session).send
        (Event.named key.event) now).1.timers =
          (s.timers.cancel key).apply (s.sends (Event.named key.event)) now := timers_send
    have hcancel : (s.timers.cancel key).get? other = s.timers.get? other := by
      rw [get?_cancel, if_neg (Ne.symm hother)]
    dsimp only
    rw [hsend, get?_apply]
    cases lastFor other (s.sends (Event.named key.event)) with
    | some c => rfl
    | none => exact hcancel
  · rfl

/-- An event is delivered for a timer, whatever comes of it. -/
def Delivers (s : Session) (key : TimerKey) (now : Nat) : Prop :=
  (s.fireTimer key now).2 ≠ .ok none

/-- The only thing that is asked of a timer is whether it is armed. -/
theorem delivers_iff : s.Delivers key now ↔ ∃ d, s.timers.get? key = some d := by
  rw [← contains_iff, Delivers, fireTimer]
  split
  · rename_i harmed
    refine ⟨fun _ => harmed, fun _ h => ?_⟩
    generalize send _ _ _ = sent at h
    obtain ⟨_, _ | _⟩ := sent <;> cases h
  · rename_i harmed
    exact ⟨fun h => absurd rfl h, fun h => absurd h harmed⟩

/-- A timer is delivered in a batch of some moment although its deadline comes later. -/
def DeliversEarly (s : Session) (key : TimerKey) (clock now : Nat) : Prop :=
  s.Delivers key clock ∧ ∃ d, s.timers.get? key = some d ∧ now < d

end Session

/-! ### The timers of a batch -/

namespace Service

variable {sv : Service} {key : TimerKey} {now clock : Nat}
  {turns before after : List (TimerKey × Nat)}

/-- Fires timers in turn, each at its own clock. -/
def fireAll (sv : Service) (turns : List (TimerKey × Nat)) : Service :=
  turns.foldl (fun sv turn => fire turn.2 sv turn.1) sv

theorem fireDue_eq :
    sv.fireDue now = sv.fireAll ((sv.session.dueTimers now).map fun key => (key, now)) := by
  rw [fireDue, fireAll, List.foldl_map]

theorem session_fire : (fire now sv key).session = (sv.session.fireTimer key now).1 := by
  unfold fire
  split
  · rename_i h
    rw [h]
    rfl
  · rename_i h
    rw [h]

/-- What the firings of a batch do to the timers, each command with the clock at which it is
carried out. -/
def batch (sv : Service) : List (TimerKey × Nat) → List (Nat × TimerCommand)
  | [] => []
  | (key, clock) :: rest =>
    (sv.session.answers key).map (fun c => (clock, c)) ++ batch (fire clock sv key) rest

/-- The last command of a batch that names a timer, with its clock. -/
def lastIn (key : TimerKey) (commands : List (Nat × TimerCommand)) :
    Option (Nat × TimerCommand) :=
  (commands.filter fun c => decide (c.2.key = key)).getLast?

theorem lastIn_append {l r : List (Nat × TimerCommand)} :
    lastIn key (l ++ r) = (lastIn key r).or (lastIn key l) := by
  rw [lastIn, List.filter_append, List.getLast?_append]
  rfl

theorem lastIn_map {l : List TimerCommand} :
    lastIn key (l.map fun c => (clock, c)) = (lastFor key l).map fun c => (clock, c) := by
  rw [lastIn, lastFor, List.filter_map, List.getLast?_map]
  rfl

theorem mem_of_lastIn {commands : List (Nat × TimerCommand)} {time : Nat} {c : TimerCommand}
    (h : lastIn key commands = some (time, c)) : (time, c) ∈ commands ∧ c.key = key := by
  obtain ⟨hmem, hkey⟩ := List.mem_filter.mp (List.mem_of_getLast? h)
  exact ⟨hmem, by simpa using hkey⟩

/-- **Of what the firings of a batch do to a timer that has not had its turn the last thing
counts.** -/
theorem get?_fireAll (hturn : key ∉ turns.map Prod.fst) :
    (sv.fireAll turns).session.timers.get? key =
      match lastIn key (sv.batch turns) with
      | some c => deadline c.1 c.2
      | none => sv.session.timers.get? key := by
  induction turns generalizing sv with
  | nil => rfl
  | cons turn rest ih =>
      obtain ⟨other, clock⟩ := turn
      rw [List.map_cons, List.mem_cons, not_or] at hturn
      have hstep : sv.fireAll ((other, clock) :: rest) = (fire clock sv other).fireAll rest := rfl
      rw [hstep, ih hturn.2, session_fire, Session.get?_fireTimer hturn.1, batch, lastIn_append,
        lastIn_map]
      cases lastIn key ((fire clock sv other).batch rest) with
      | some c => rfl
      | none => cases lastFor key (sv.session.answers other) <;> rfl

theorem clock_of_mem_batch {time : Nat} {c : TimerCommand} (h : (time, c) ∈ sv.batch turns) :
    ∃ turn ∈ turns, turn.2 = time := by
  induction turns generalizing sv with
  | nil => cases h
  | cons turn rest ih =>
      obtain ⟨other, clock⟩ := turn
      rcases List.mem_append.mp h with h | h
      · obtain ⟨_, _, hc⟩ := List.mem_map.mp h
        cases hc
        exact ⟨_, List.mem_cons_self, rfl⟩
      · obtain ⟨turn, hmem, hclock⟩ := ih h
        exact ⟨turn, List.mem_cons_of_mem _ hmem, hclock⟩

/-- How the timer of a batch stands that has its turn: as it was when the batch was listed,
armed again, or cancelled. -/
theorem turn_cases
    (hturns : (before ++ (key, clock) :: after).map Prod.fst = sv.session.dueTimers now) :
    (lastIn key (sv.batch before) = none ∧
      ∃ d, d ≤ now ∧ (sv.fireAll before).session.timers.get? key = some d) ∨
    (∃ time delay, lastIn key (sv.batch before) = some (time, .arm key delay) ∧
      (sv.fireAll before).session.timers.get? key = some (time + delay * millisecond)) ∨
    (∃ time, lastIn key (sv.batch before) = some (time, .cancel key) ∧
      (sv.fireAll before).session.timers.get? key = none) := by
  rw [List.map_append, List.map_cons] at hturns
  have hturn : key ∉ before.map Prod.fst := by
    have hnodup : (sv.session.dueTimers now).Nodup := nodup_due
    rw [← hturns] at hnodup
    exact fun h => (List.nodup_append.mp hnodup).2.2 _ h _ List.mem_cons_self rfl
  obtain ⟨d, hd, hdue⟩ : ∃ d, d ≤ now ∧ sv.session.timers.get? key = some d := by
    refine mem_due.mp ?_
    rw [← Session.dueTimers, ← hturns]
    exact List.mem_append_right _ List.mem_cons_self
  rw [get?_fireAll hturn]
  cases hlast : lastIn key (sv.batch before) with
  | none => exact Or.inl ⟨rfl, d, hd, hdue⟩
  | some c =>
      obtain ⟨time, c⟩ := c
      have hkey := (mem_of_lastIn hlast).2
      cases c with
      | arm k delay =>
          cases hkey
          exact Or.inr (Or.inl ⟨time, delay, rfl, rfl⟩)
      | cancel k =>
          cases hkey
          exact Or.inr (Or.inr ⟨time, rfl, rfl⟩)

/-- **When a timer of a batch is delivered early.**  Let timers that are due at a moment be
fired in turn, none at a clock before it.  One of them is delivered before its deadline
exactly when the last thing that the firings before it did to it was to arm it until after
that moment, as arming it with a positive delay does.  It is not delivered at all exactly
when the last thing was to cancel it. -/
theorem deliversEarly_iff
    (hturns : (before ++ (key, clock) :: after).map Prod.fst = sv.session.dueTimers now)
    (hclock : ∀ turn ∈ before, now ≤ turn.2) :
    ((sv.fireAll before).session.DeliversEarly key clock now ↔
      ∃ time delay, lastIn key (sv.batch before) = some (time, .arm key delay) ∧
        now < time + delay * millisecond) ∧
    (¬ (sv.fireAll before).session.Delivers key clock ↔
      ∃ time, lastIn key (sv.batch before) = some (time, .cancel key)) ∧
    (∀ time delay, lastIn key (sv.batch before) = some (time, .arm key delay) → 0 < delay →
      (sv.fireAll before).session.DeliversEarly key clock now) := by
  unfold Session.DeliversEarly
  simp only [Session.delivers_iff]
  rcases turn_cases hturns with ⟨hlast, d, hd, hget⟩ | ⟨time, delay, hlast, hget⟩ |
    ⟨time, hlast, hget⟩
  · simp [hlast, hget, hd]
  · have hnow : now ≤ time := by
      obtain ⟨turn, hturn, rfl⟩ := clock_of_mem_batch (mem_of_lastIn hlast).1
      exact hclock turn hturn
    have hlater : 0 < delay → now < time + delay * millisecond := fun hpos => by
      have := Nat.mul_pos hpos (show 0 < millisecond by decide)
      omega
    simpa [hlast, hget] using hlater
  · simp [hlast, hget]

/-! ### A batch that delivers early -/

/-- Two regions that wait equally long: one to enter both again, the other to go on. -/
def twinChart : StateConfig :=
  { StateConfig.blank with
    id := some "m"
    initial := some "p"
    states := [("p", { StateConfig.blank with
      type := some .parallel
      states := [
        ("a", { StateConfig.blank with
          initial := some "x"
          states := [("x", { StateConfig.blank with
            after := [("100", [{ CandidateConfig.idle with target := some "#m.p" }])] })] }),
        ("b", { StateConfig.blank with
          initial := some "y"
          states := [
            ("y", { StateConfig.blank with
              after := [("100", [{ CandidateConfig.idle with target := some "z" }])] }),
            ("z", StateConfig.blank)] })] })] }

/-- The timer of the region that enters both again. -/
def restarting : TimerKey := ⟨"m.p.a.x", Event.afterName 100 "m.p.a.x"⟩

/-- The timer of the region that goes on. -/
def restarted : TimerKey := ⟨"m.p.b.y", Event.afterName 100 "m.p.b.y"⟩

/-- The moment at which both are due. -/
def dueTime : Nat := 100 * millisecond

/-- The chart is started at time zero, and the first of its timers is fired when both are
due. -/
theorem exists_twin : ∃ (m : Machine) (sv : Service),
    Definition.ofConfig twinChart .null = .ok m.definition ∧ start m 1 0 = .ok sv ∧
      [restarting, restarted] = sv.session.dueTimers dueTime ∧
      lastIn restarted (sv.batch [(restarting, dueTime)]) = some (dueTime, .arm restarted 100) ∧
      (sv.fireAll [(restarting, dueTime)]).session.timers.get? restarted =
        some (dueTime + dueTime) := by
  have h : (Definition.ofConfig twinChart .null).toOption.any (fun d =>
      (start (Machine.ofDefinition d) 1 0).toOption.any fun sv =>
        decide ([restarting, restarted] = sv.session.dueTimers dueTime ∧
          lastIn restarted (sv.batch [(restarting, dueTime)]) =
            some (dueTime, .arm restarted 100) ∧
          (sv.fireAll [(restarting, dueTime)]).session.timers.get? restarted =
            some (dueTime + dueTime))) = true := by decide +kernel
  obtain ⟨d, hd, h⟩ := exists_of_run h
  obtain ⟨sv, hsv, h⟩ := exists_of_run h
  exact ⟨Machine.ofDefinition d, sv, hd, hsv, of_decide_eq_true h⟩

/-- The second timer of the twin chart has just been armed again when its turn comes. -/
theorem deliversEarly_iff_twinChart : ∃ (m : Machine) (sv : Service),
    Definition.ofConfig twinChart .null = .ok m.definition ∧ start m 1 0 = .ok sv ∧
      (sv.fireAll [(restarting, dueTime)]).session.DeliversEarly restarted dueTime dueTime := by
  obtain ⟨m, sv, hm, hsv, hdue, hlast, _⟩ := exists_twin
  have hturns : ([(restarting, dueTime)] ++ (restarted, dueTime) :: []).map Prod.fst =
      sv.session.dueTimers dueTime := hdue
  have hclock : ∀ turn ∈ [(restarting, dueTime)], dueTime ≤ turn.2 := by
    simp only [List.mem_singleton, forall_eq, Nat.le_refl]
  exact ⟨m, sv, hm, hsv,
    (deliversEarly_iff hturns hclock).1.mpr ⟨dueTime, 100, hlast, by decide⟩⟩

/-- Services do deliver timers before their deadlines: the batch of the twin chart. -/
theorem exists_deliversEarly_twinChart : ¬ ∀ (m : Machine) (c : StateConfig) (sv : Service)
    (before after : List (TimerKey × Nat)) (key : TimerKey) (clock now : Nat),
    Definition.ofConfig c .null = .ok m.definition → start m 1 0 = .ok sv →
      (before ++ (key, clock) :: after).map Prod.fst = sv.session.dueTimers now →
      (∀ turn ∈ before ++ (key, clock) :: after, now ≤ turn.2) →
      (sv.fireAll before).session.Delivers key clock →
      ∀ d, (sv.fireAll before).session.timers.get? key = some d → d ≤ now := by
  intro hnever
  obtain ⟨m, sv, hm, hsv, hdue, _, hget⟩ := exists_twin
  have hclock : ∀ turn ∈ [(restarting, dueTime)] ++ (restarted, dueTime) :: [],
      dueTime ≤ turn.2 := by
    simp only [List.singleton_append, List.mem_cons, List.not_mem_nil, or_false, forall_eq_or_imp,
      forall_eq, Nat.le_refl, and_self]
  have hlate := hnever m twinChart sv [(restarting, dueTime)] [] restarted dueTime dueTime hm hsv
    hdue hclock (Session.delivers_iff.mpr ⟨_, hget⟩) _ hget
  exact absurd hlate (by decide)

end Service

end Statechart
