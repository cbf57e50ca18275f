/-
What an operation leaves that fails.

A session answers an operation with the session after it, also where it fails.  Sending an
event works on a copy until the macrostep has come to rest, so that a guard that fails in the
last of its steps leaves no trace of the first; a patch and another machine are looked at
before anything is given up for them.  `Refuses` lists why an operation fails, and
`attempt_eq_error_iff` says that there are no other reasons.

A timer is different.  It is disarmed before its event is delivered, whatever comes of the
event: a timer fires once, and one that stayed armed behind its deadline would be due again at
once.  So an event of a timer that fails takes the timer with it, and only that.
-/
import Statechart.Proofs.Run.Armed
import Statechart.Proofs.Step.Failure

namespace Statechart.Session

open Outcome

variable {s : Session} {now : Nat} {err : Error} {key : TimerKey}

/-- What can be asked of a session. -/
inductive Operation
  | send (event : Event)
  | fire (key : TimerKey)
  | context (patch : Json)
  | replace (machine : Machine)

/-- Carries out an operation at a moment, and tells whether it went through. -/
def attempt (s : Session) (now : Nat) : Operation → Session × Except Error Unit
  | .send e => ((s.send e now).1, (s.send e now).2.map fun _ => ())
  | .fire key => ((s.fireTimer key now).1, (s.fireTimer key now).2.map fun _ => ())
  | .context patch => ((s.updateContext patch).1, (s.updateContext patch).2.map fun _ => ())
  | .replace m => ((s.replaceMachine m now).1, (s.replaceMachine m now).2.map fun _ => ())

/-- Why an operation fails: an event that is sent or that a timer delivers has no next state,
a patch is no object, and another machine does not start. -/
inductive Refuses (s : Session) (err : Error) : Operation → Prop
  | send {e : Event} (preview : s.preview e = .error err) : Refuses s err (.send e)
  | fire {key : TimerKey} (armed : s.timers.contains key = true)
      (preview : s.preview (Event.named key.event) = .error err) : Refuses s err (.fire key)
  | context {patch : Json} (bare : ∀ members, patch ≠ .object members)
      (error : err = .transition .patchNotObject) : Refuses s err (.context patch)
  | replace {m : Machine} (initial : m.initialState = .error err) : Refuses s err (.replace m)

theorem send_eq_error_iff {e : Event} :
    (s.send e now).2 = .error err ↔ s.preview e = .error err := by
  unfold send
  cases hpreview : s.preview e with
  | ok state => constructor <;> intro h <;> cases h
  | error e' => exact Iff.rfl

theorem start_eq_error_iff (now : Nat) {m : Machine} :
    Session.start m now = .error err ↔ m.initialState = .error err := by
  unfold Session.start
  rw [bind_eq_error]
  refine or_iff_left ?_
  rintro ⟨state, -, h⟩
  cases h

theorem fireTimer_eq_error_iff : (s.fireTimer key now).2 = .error err ↔
    s.timers.contains key = true ∧ s.preview (Event.named key.event) = .error err := by
  unfold fireTimer
  split
  · rename_i harmed
    rw [and_iff_right harmed]
    dsimp only
    rw [map_eq_error, send_eq_error_iff]
    exact Iff.rfl
  · rename_i harmed
    exact ⟨fun h => (by cases h), fun h => absurd h.1 harmed⟩

theorem updateContext_eq_error_iff {patch : Json} : (s.updateContext patch).2 = .error err ↔
    (∀ members, patch ≠ .object members) ∧ err = .transition .patchNotObject := by
  unfold updateContext
  split
  · rename_i members
    exact ⟨fun h => (by cases h), fun h => absurd rfl (h.1 members)⟩
  · rename_i hbare
    refine ⟨fun h => ?_, fun h => by rw [h.2]⟩
    cases h
    exact ⟨hbare, rfl⟩

theorem replaceMachine_eq_error_iff {m : Machine} :
    (s.replaceMachine m now).2 = .error err ↔ m.initialState = .error err := by
  rw [← start_eq_error_iff now]
  unfold replaceMachine
  cases hstart : Session.start m now with
  | ok fresh => constructor <;> intro h <;> cases h
  | error e' => constructor <;> intro h <;> cases h <;> rfl

/-- **When an operation fails.** -/
theorem attempt_eq_error_iff {op : Operation} :
    (s.attempt now op).2 = .error err ↔ Refuses s err op := by
  cases op with
  | send e =>
      refine map_eq_error.trans (send_eq_error_iff.trans ⟨.send, fun h => ?_⟩)
      cases h with
      | send h => exact h
  | fire key =>
      refine map_eq_error.trans (fireTimer_eq_error_iff.trans ⟨fun h => .fire h.1 h.2, fun h => ?_⟩)
      cases h with
      | fire harmed h => exact ⟨harmed, h⟩
  | context patch =>
      refine map_eq_error.trans
        (updateContext_eq_error_iff.trans ⟨fun h => .context h.1 h.2, fun h => ?_⟩)
      cases h with
      | context hbare h => exact ⟨hbare, h⟩
  | replace m =>
      refine map_eq_error.trans (replaceMachine_eq_error_iff.trans ⟨.replace, fun h => ?_⟩)
      cases h with
      | replace h => exact h

/-- What an operation fails with is an error of a run. -/
theorem Refuses.ofRun {op : Operation} (h : Refuses s err op) : err.OfRun := by
  cases h with
  | send h => exact s.machine.failsOnly_transition _ _ _ h
  | fire _ h => exact s.machine.failsOnly_transition _ _ _ h
  | context _ h =>
      rw [h]
      exact .step (.transition _)
  | replace h => exact Machine.failsOnly_initialState _ _ h

/-- The session after an operation that fails. -/
theorem Refuses.after {op : Operation} (h : Refuses s err op) (now : Nat) :
    (s.attempt now op).1 = match op with
      | .fire key => { s with timers := s.timers.cancel key }
      | _ => s := by
  cases h with
  | @send e h =>
      show (s.send e now).1 = s
      unfold Session.send
      rw [h]
  | @fire key harmed h =>
      show (s.fireTimer key now).1 = _
      have hsend : ({ s with timers := s.timers.cancel key } : Session).preview
        (Event.named key.event) = .error err := h
      unfold fireTimer Session.send
      rw [if_pos harmed, hsend]
  | @context patch hbare _ =>
      show (s.updateContext patch).1 = s
      unfold updateContext
      split
      · rename_i members
        exact absurd rfl (hbare members)
      · rfl
  | @replace m h =>
      show (s.replaceMachine m now).1 = s
      unfold replaceMachine
      rw [(start_eq_error_iff now).mpr h]

/-- **An operation that fails changes nothing** but the timer that was to be fired.  It fails for
a reason of its own and with an error of a run; machine and state are as they were, and so is
every timer with its deadline, except that of an event that could not be delivered, which is
disarmed. -/
theorem failed_attempt (s : Session) (now : Nat) (op : Operation) (err : Error)
    (h : (s.attempt now op).2 = .error err) :
    Refuses s err op ∧ err.OfRun ∧ (s.attempt now op).1.machine = s.machine ∧
      (s.attempt now op).1.state = s.state ∧
      (∀ key, op = .fire key → s.timers.contains key = true ∧
        (s.attempt now op).1.timers.get? key = none) ∧
      ∀ key, op ≠ .fire key → (s.attempt now op).1.timers.get? key = s.timers.get? key := by
  have hrefuses := attempt_eq_error_iff.mp h
  have hafter := hrefuses.after now
  refine ⟨hrefuses, hrefuses.ofRun, ?_⟩
  rw [hafter]
  cases op with
  | fire key =>
      refine ⟨rfl, rfl, fun k hk => ?_, fun k hk => ?_⟩
      · cases hk
        cases hrefuses with
        | fire harmed _ =>
            exact ⟨harmed, TimerRegistry.get?_cancel.trans (if_pos rfl)⟩
      · have hne : key ≠ k := fun heq => hk (by rw [heq])
        exact TimerRegistry.get?_cancel.trans (if_neg hne)
  | send _ | context _ | replace _ => exact ⟨rfl, rfl, nofun, fun _ _ => rfl⟩

/-- A kettle that boils when it is ready, and is given up after two seconds. -/
def kettleChart : StateConfig :=
  { StateConfig.blank with
    id := some "m"
    initial := some "cold"
    states := [
      ("cold", { StateConfig.blank with
        after := [
          ("1000", [{ CandidateConfig.idle with
            target := some "hot", guard := some (.named "ready") }]),
          ("2000", [{ CandidateConfig.idle with target := some "off" }])] }),
      ("hot", StateConfig.blank),
      ("off", StateConfig.blank)] }

/-- The timer of the kettle for a delay. -/
def kettleTimer (delay : Nat) : TimerKey := ⟨"m.cold", Event.afterName delay "m.cold"⟩

/-- The deadlines of the timers of the kettle for one and for two seconds. -/
def kettleDeadlines (s : Session) : List (Option Nat) :=
  [s.timers.get? (kettleTimer 1000), s.timers.get? (kettleTimer 2000)]

/-- Nobody knows when the kettle is ready, so that its first timer fails. -/
theorem exists_failed_kettleChart : ∃ s err, Career s ∧
    (s.attempt 0 (.fire (kettleTimer 1000))).2 = .error err ∧
    kettleDeadlines s = [some 1000000000, some 2000000000] := by
  have h : (Definition.ofConfig kettleChart .null).toOption.any (fun d =>
      (Session.start (Machine.ofDefinition d) 0).toOption.any fun s =>
        !(s.attempt 0 (.fire (kettleTimer 1000))).2.isOk &&
          decide (kettleDeadlines s = [some 1000000000, some 2000000000])) = true := by
    decide +kernel
  obtain ⟨d, hd, h⟩ := exists_of_run h
  obtain ⟨s, hs, h⟩ := exists_of_run h
  obtain ⟨hfails, hdeadlines⟩ := Bool.and_eq_true_iff.mp h
  cases hattempt : (s.attempt 0 (.fire (kettleTimer 1000))).2 with
  | ok u =>
      rw [hattempt] at hfails
      cases hfails
  | error err => exact ⟨s, err, .start hd hs, hattempt, of_decide_eq_true hdeadlines⟩

/-- The first timer of the kettle is lost, and the second keeps its deadline. -/
theorem failed_attempt_kettleChart : ∃ s s' err, Career s ∧
    s.attempt 0 (.fire (kettleTimer 1000)) = (s', .error err) ∧ s'.state = s.state ∧
    kettleDeadlines s = [some 1000000000, some 2000000000] ∧
    kettleDeadlines s' = [none, some 2000000000] := by
  obtain ⟨s, err, hcareer, hfails, hdeadlines⟩ := exists_failed_kettleChart
  obtain ⟨-, -, -, hstate, hfired, hothers⟩ := failed_attempt s 0 _ err hfails
  have hsecond : s.timers.get? (kettleTimer 2000) = some 2000000000 := by
    simpa [kettleDeadlines] using (List.cons.inj (List.cons.inj hdeadlines).2).1
  refine ⟨s, _, err, hcareer, Prod.ext rfl hfails, hstate, hdeadlines, ?_⟩
  rw [kettleDeadlines, (hfired _ rfl).2, hothers (kettleTimer 2000) (by
    intro h
    injection h with h
    exact absurd h (by decide)), hsecond]

/-- An operation that fails may change something: it may take a timer. -/
theorem exists_lost_kettleChart : ¬ ∀ (s : Session) (now : Nat) (op : Operation) (err : Error),
    Career s → (s.attempt now op).2 = .error err →
      (s.attempt now op).1.machine = s.machine ∧ (s.attempt now op).1.state = s.state ∧
        ∀ key, (s.attempt now op).1.timers.get? key = s.timers.get? key := by
  intro hall
  obtain ⟨s, err, hcareer, hfails, hdeadlines⟩ := exists_failed_kettleChart
  obtain ⟨-, -, hkeys⟩ := hall s 0 _ err hcareer hfails
  have hlost : (s.attempt 0 (.fire (kettleTimer 1000))).1.timers.get? (kettleTimer 1000) = none := by
    rw [(attempt_eq_error_iff.mp hfails).after]
    exact TimerRegistry.get?_cancel.trans (if_pos rfl)
  rw [hkeys (kettleTimer 1000), (List.cons.inj hdeadlines).1] at hlost
  cases hlost

end Statechart.Session
