/-
What a service publishes is what its session is.

A service keeps three accounts of one thing: the session, the current snapshot of it, and the
snapshot that its broadcaster published last.  A request or a timer changes the session first,
and only one that succeeds is committed.  One that fails leaves machine and state as they were,
and at most disarms a timer, of which a snapshot tells nothing, so that the current snapshot
stays true without being renewed (`Mirrors.keep`).

What happens to a session by itself, without a service around it, is listed by `Request.changes`
and `Session.fired`.  `Publishes` says that a service published just that, each change once and
with the next number.  It holds of one request and of one timer, and is carried over batches of
timers and over any course of occurrences by `Publishes.trans`.
-/
import Mathlib.Data.List.Induction
import Statechart.Proofs.Run.Failed
import Statechart.Proofs.Timer.Firing

namespace Statechart

open Outcome Session TimerRegistry

/-! ### What happens to a session -/

/-- What a request asks of a session, and the cause of the snapshot that comes of it; nothing if
the request only looks. -/
def Request.operation (m : Machine) : Request → Option (Cause × Operation)
  | .send event => some (.event, .send event)
  | .updateContext patch => some (.context, .context patch)
  | .load definition => some (.load, .replace { m with definition })
  | .preview _ | .snapshot | .shutdown => none

/-- Whether a request is to change the session. -/
def Request.commits : Request → Bool
  | .send _ | .updateContext _ | .load _ => true
  | .preview _ | .snapshot | .shutdown => false

/-- What a request makes of a session, if anything. -/
def Request.changes (r : Request) (s : Session) (now : Nat) : List (Session × Cause) :=
  match r.operation s.machine with
  | some (cause, op) =>
    match s.attempt now op with
    | (session, .ok _) => [(session, cause)]
    | (_, .error _) => []
  | none => []

/-- What firing a timer makes of a session: nothing if the timer is not armed or its event
fails. -/
def Session.fires (s : Session) (key : TimerKey) (clock : Nat) : List (Session × Cause) :=
  match s.fireTimer key clock with
  | (session, .ok (some _)) => [(session, .timer)]
  | _ => []

/-- What timers make of a session that are fired in turn, each at its own clock. -/
def Session.fired (s : Session) : List (TimerKey × Nat) → List (Session × Cause)
  | [] => []
  | (key, clock) :: rest => s.fires key clock ++ fired (s.fireTimer key clock).1 rest

/-- The snapshots of sessions, numbered from a first number on. -/
def Snapshot.numbered : Nat → List (Session × Cause) → List Snapshot
  | _, [] => []
  | first, (session, cause) :: rest => .ofSession session first cause :: numbered (first + 1) rest

namespace Service

variable {sv sv' sv'' : Service} {l l' : List (Session × Cause)} {r : Request} {key : TimerKey}
  {now clock : Nat} {turns : List (TimerKey × Nat)}

/-- What a service has to deal with. -/
inductive Occurrence
  /-- A request, at a moment. -/
  | request (r : Request) (now : Nat)
  /-- A wake-up at a moment, and the clock at which each of the timers that are due has its
  turn. -/
  | wake (now : Nat) (clock : TimerKey → Nat)

/-- The turns of a wake-up. -/
def dueTurns (sv : Service) (now : Nat) (clock : TimerKey → Nat) : List (TimerKey × Nat) :=
  (sv.session.dueTimers now).map fun key => (key, clock key)

/-- Deals with an occurrence.  A service that takes no requests any more does not wake up. -/
def occur (sv : Service) : Occurrence → Service
  | .request r now => (sv.handle r now).1
  | .wake now clock => if sv.running then sv.fireAll (sv.dueTurns now clock) else sv

/-- With a clock that stands still a wake-up fires what is due. -/
theorem occur_wake (hrunning : sv.running = true) :
    sv.occur (.wake now fun _ => now) = sv.fireDue now := by
  rw [occur, if_pos hrunning, fireDue_eq, dueTurns]

/-- What an occurrence makes of the session of a service. -/
def changes (sv : Service) : Occurrence → List (Session × Cause)
  | .request r now => if sv.running then r.changes sv.session now else []
  | .wake now clock => if sv.running then sv.session.fired (sv.dueTurns now clock) else []

/-- The service after occurrences in order. -/
def after (sv : Service) (past : List Occurrence) : Service := past.foldl occur sv

/-- What occurrences make of the session of a service, one after the other. -/
def changesIn (sv : Service) : List Occurrence → List (Session × Cause)
  | [] => []
  | o :: rest => sv.changes o ++ (sv.occur o).changesIn rest

/-! ### The current snapshot is that of the session -/

/-- The current snapshot tells what the session is.  Where the session cannot tell which events
it answers, the snapshot names none. -/
structure Mirrors (sv : Service) : Prop where
  state : sv.current.state = sv.session.state
  machine : sv.current.machine = sv.session.machine.id
  checksum : sv.current.checksum = sv.session.machine.definition.checksum
  activeIds : sv.current.activeIds = sv.session.activeIds.toList
  nextEvents : match sv.session.nextEvents with
    | .ok events => sv.current.nextEvents = events
    | .error _ => sv.current.nextEvents = []

theorem mirrors_of_ofSession {sequence : Nat} {cause : Cause}
    (h : sv.current = .ofSession sv.session sequence cause) : sv.Mirrors := by
  refine ⟨?_, ?_, ?_, ?_, ?_⟩ <;> rw [h]
  · rfl
  · rfl
  · rfl
  · rfl
  · unfold Snapshot.ofSession
    cases sv.session.nextEvents <;> rfl

/-- Nothing is published, and nothing changes that a snapshot tells of. -/
structure Keeps (sv sv' : Service) : Prop where
  current : sv'.current = sv.current
  broadcaster : sv'.broadcaster = sv.broadcaster
  machine : sv'.session.machine = sv.session.machine
  state : sv'.session.state = sv.session.state

theorem Keeps.refl (sv : Service) : sv.Keeps sv := ⟨rfl, rfl, rfl, rfl⟩

/-- A snapshot tells of machine and state alone. -/
theorem Mirrors.keep (h : sv.Mirrors) (hkeeps : sv.Keeps sv') : sv'.Mirrors := by
  have hactive : sv'.session.activeIds = sv.session.activeIds := by
    rw [Session.activeIds, hkeeps.machine, hkeeps.state, Session.activeIds]
  have hevents : sv'.session.nextEvents = sv.session.nextEvents := by
    rw [Session.nextEvents, hkeeps.machine, hkeeps.state, Session.nextEvents]
  refine ⟨?_, ?_, ?_, ?_, ?_⟩ <;> rw [hkeeps.current]
  · rw [hkeeps.state, h.state]
  · rw [hkeeps.machine, h.machine]
  · rw [hkeeps.machine, h.checksum]
  · rw [hactive, h.activeIds]
  · rw [hevents]
    exact h.nextEvents

/-! ### What is published from one service to another -/

/-- From one service to another changes were published, each once and with the next number, and
nothing else was done to the broadcaster. -/
structure Publishes (sv : Service) (l : List (Session × Cause)) (sv' : Service) : Prop where
  broadcaster : sv'.broadcaster =
    (Snapshot.numbered (sv.current.sequence + 1) l).foldl Broadcaster.publish sv.broadcaster
  current : sv'.current =
    (Snapshot.numbered (sv.current.sequence + 1) l).getLast?.getD sv.current
  sequence : sv'.current.sequence = sv.current.sequence + l.length
  mirrors : sv.Mirrors → sv'.Mirrors

theorem numbered_append (first : Nat) : Snapshot.numbered first (l ++ l') =
    Snapshot.numbered first l ++ Snapshot.numbered (first + l.length) l' := by
  induction l generalizing first with
  | nil => rfl
  | cons change rest ih =>
      rw [List.cons_append, Snapshot.numbered, Snapshot.numbered, ih, List.cons_append,
        List.length_cons, Nat.add_right_comm, Nat.add_assoc]

theorem length_numbered (first : Nat) : (Snapshot.numbered first l).length = l.length := by
  induction l generalizing first with
  | nil => rfl
  | cons change rest ih => rw [Snapshot.numbered, List.length_cons, ih, List.length_cons]

theorem sequence_numbered (first : Nat) :
    (Snapshot.numbered first l).map Snapshot.sequence = List.range' first l.length := by
  induction l generalizing first with
  | nil => rfl
  | cons change rest ih =>
      rw [Snapshot.numbered, List.map_cons, ih, List.length_cons, List.range'_succ]
      rfl

theorem Publishes.trans (h : sv.Publishes l sv') (h' : sv'.Publishes l' sv'') :
    sv.Publishes (l ++ l') sv'' := by
  have hnumber : sv'.current.sequence + 1 = sv.current.sequence + 1 + l.length := by
    rw [h.sequence, Nat.add_right_comm]
  refine ⟨?_, ?_, ?_, fun hmirrors => h'.mirrors (h.mirrors hmirrors)⟩
  · rw [h'.broadcaster, h.broadcaster, numbered_append, List.foldl_append, hnumber]
  · rw [h'.current, hnumber, h.current, numbered_append, List.getLast?_append, Option.getD_or]
  · rw [h'.sequence, h.sequence, List.length_append, Nat.add_assoc]

/-- A commit publishes what it takes over. -/
theorem publishes_commit {session : Session} {cause : Cause} :
    sv.Publishes [(session, cause)] (sv.commit session cause) :=
  ⟨rfl, rfl, rfl, fun _ => mirrors_of_ofSession rfl⟩

theorem Keeps.publishes (h : sv.Keeps sv') : sv.Publishes [] sv' :=
  ⟨h.broadcaster, h.current, congrArg Snapshot.sequence h.current, fun hm => hm.keep h⟩

/-! ### One request, one timer -/

theorem commitIfOk_map {α β : Type} {f : α → β} {cause : Cause}
    {result : Session × Except Error α} :
    sv.commitIfOk cause (result.1, result.2.map f) = sv.commitIfOk cause result := by
  obtain ⟨session, answer⟩ := result
  cases answer <;> rfl

/-- A request that asks something of the session is committed if that succeeds. -/
theorem handle_of_operation {cause : Cause} {op : Operation} (hrunning : sv.running = true)
    (h : r.operation sv.session.machine = some (cause, op)) :
    sv.handle r now = sv.commitIfOk cause (sv.session.attempt now op) := by
  unfold handle
  rw [if_pos hrunning]
  cases r <;> cases h <;> exact commitIfOk_map.symm

theorem commits_eq (r : Request) (m : Machine) : r.commits = (r.operation m).isSome := by
  cases r <;> rfl

/-- No request fires a timer. -/
theorem after_of_operation {cause : Cause} {op : Operation} {err : Error}
    (h : r.operation sv.session.machine = some (cause, op))
    (hfails : (sv.session.attempt now op).2 = .error err) :
    (sv.session.attempt now op).1 = sv.session := by
  rw [(attempt_eq_error_iff.mp hfails).after now]
  cases r <;> cases h <;> rfl

/-- A request that only looks keeps what is published. -/
theorem keeps_of_looks (h : r.operation sv.session.machine = none) :
    sv.Keeps (sv.handle r now).1 := by
  unfold handle
  split
  · cases r with
    | preview _ | snapshot | shutdown => exact ⟨rfl, rfl, rfl, rfl⟩
    | send _ | updateContext _ | load _ => cases h
  · exact .refl sv

/-- A request that changes the session is committed and answered with its snapshot; any other
keeps what is published. -/
theorem handle_cases (sv : Service) (r : Request) (now : Nat) :
    (∃ session cause, sv.changes (.request r now) = [(session, cause)] ∧ r.commits = true ∧
      sv.handle r now =
        (sv.commit session cause, .ok (.snapshot (sv.commit session cause).current))) ∨
    (sv.changes (.request r now) = [] ∧ sv.Keeps (sv.handle r now).1 ∧
      ¬ (r.commits = true ∧ ∃ reply, (sv.handle r now).2 = .ok reply)) := by
  rw [changes, commits_eq r sv.session.machine]
  by_cases hrunning : sv.running = true
  · rw [if_pos hrunning, Request.changes]
    cases hop : r.operation sv.session.machine with
    | some asked =>
        obtain ⟨cause, op⟩ := asked
        rw [handle_of_operation hrunning hop]
        have hsame (err : Error) (hfails : (sv.session.attempt now op).2 = .error err) :=
          after_of_operation hop hfails
        dsimp only
        cases hattempt : sv.session.attempt now op with
        | mk session answer =>
            rw [hattempt] at hsame
            cases answer with
            | ok _ => exact Or.inl ⟨session, cause, rfl, rfl, rfl⟩
            | error err =>
                obtain rfl := hsame err rfl
                exact Or.inr ⟨rfl, ⟨rfl, rfl, rfl, rfl⟩, fun ⟨_, _, h⟩ => nomatch h⟩
    | none => exact Or.inr ⟨rfl, keeps_of_looks hop, fun ⟨h, _⟩ => nomatch h⟩
  · unfold handle
    rw [if_neg hrunning, if_neg hrunning]
    exact Or.inr ⟨rfl, .refl sv, fun ⟨_, _, h⟩ => nomatch h⟩

/-- A request publishes what it makes of the session. -/
theorem publishes_handle : sv.Publishes (sv.changes (.request r now)) (sv.handle r now).1 := by
  rcases handle_cases sv r now with ⟨session, cause, hchanges, _, hhandle⟩ | ⟨hnone, hkeeps, _⟩
  · rw [hchanges, hhandle]
    exact publishes_commit
  · rw [hnone]
    exact hkeeps.publishes

/-- A timer that delivers nothing leaves machine and state alone. -/
theorem frame_fireTimer (s : Session) (key : TimerKey) (clock : Nat)
    (h : ∀ state, (s.fireTimer key clock).2 ≠ .ok (some state)) :
    (s.fireTimer key clock).1.machine = s.machine ∧ (s.fireTimer key clock).1.state = s.state := by
  cases hanswer : (s.fireTimer key clock).2 with
  | error err =>
      have hfails : (s.attempt clock (.fire key)).2 = .error err := map_eq_error.mpr hanswer
      have hafter := (attempt_eq_error_iff.mp hfails).after clock
      have hsession : (s.fireTimer key clock).1 = { s with timers := s.timers.cancel key } := hafter
      rw [hsession]
      exact ⟨rfl, rfl⟩
  | ok state =>
      cases state with
      | some state => exact absurd hanswer (h state)
      | none =>
          have hunarmed : ¬ s.Delivers key clock := fun hdelivers => hdelivers hanswer
          rw [Session.fireTimer, if_neg (fun harmed => hunarmed (by
            rw [Session.delivers_iff, ← TimerRegistry.contains_iff]; exact harmed))]
          exact ⟨rfl, rfl⟩

/-- A timer that is delivered is committed; any other keeps what is published. -/
theorem fire_cases (sv : Service) (key : TimerKey) (clock : Nat) :
    (∃ session, sv.session.fires key clock = [(session, .timer)] ∧
      (∃ state, (sv.session.fireTimer key clock).2 = .ok (some state)) ∧
      fire clock sv key = sv.commit session .timer) ∨
    (sv.session.fires key clock = [] ∧ sv.Keeps (fire clock sv key) ∧
      ∀ state, (sv.session.fireTimer key clock).2 ≠ .ok (some state)) := by
  have hframe := frame_fireTimer sv.session key clock
  unfold fire Session.fires
  generalize sv.session.fireTimer key clock = fired at hframe ⊢
  obtain ⟨session, err | _ | state⟩ := fired
  · have hnone : ∀ state, (Except.error err : Except Error (Option State)) ≠ .ok (some state) :=
      nofun
    obtain ⟨hmachine, hstate⟩ := hframe hnone
    exact Or.inr ⟨rfl, ⟨rfl, rfl, hmachine, hstate⟩, hnone⟩
  · have hnone : ∀ state, (Except.ok none : Except Error (Option State)) ≠ .ok (some state) :=
      nofun
    obtain ⟨hmachine, hstate⟩ := hframe hnone
    exact Or.inr ⟨rfl, ⟨rfl, rfl, hmachine, hstate⟩, hnone⟩
  · exact Or.inl ⟨session, rfl, ⟨state, rfl⟩, rfl⟩

/-- A timer publishes what it makes of the session. -/
theorem publishes_fire : sv.Publishes (sv.session.fires key clock) (fire clock sv key) := by
  rcases fire_cases sv key clock with ⟨session, hfires, _, hfire⟩ | ⟨hnone, hkeeps, _⟩
  · rw [hfires, hfire]
    exact publishes_commit
  · rw [hnone]
    exact hkeeps.publishes

/-! ### A batch of timers, and any course of occurrences -/

theorem publishes_fireAll : sv.Publishes (sv.session.fired turns) (sv.fireAll turns) := by
  induction turns generalizing sv with
  | nil => exact (Keeps.refl sv).publishes
  | cons turn rest ih =>
      have hrest : (fire turn.2 sv turn.1).Publishes _ _ := ih
      rw [session_fire] at hrest
      exact publishes_fire.trans hrest

theorem publishes_occur (o : Occurrence) : sv.Publishes (sv.changes o) (sv.occur o) := by
  cases o with
  | request r now => exact publishes_handle
  | wake now clock =>
      rw [changes, occur]
      by_cases hrunning : sv.running = true
      · rw [if_pos hrunning, if_pos hrunning]
        exact publishes_fireAll
      · rw [if_neg hrunning, if_neg hrunning]
        exact (Keeps.refl sv).publishes

theorem publishes_after (past : List Occurrence) :
    sv.Publishes (sv.changesIn past) (sv.after past) := by
  induction past generalizing sv with
  | nil => exact (Keeps.refl sv).publishes
  | cons o rest ih => exact (publishes_occur o).trans ih

/-! ### From the start on -/

/-- All that a service published: the snapshots lie in its broadcaster, which holds nothing else,
their numbers are 1, 2, 3 and so on, and the last of them is the current one and the latest. -/
structure Published (capacity : Nat) (log : List Snapshot) (sv : Service) : Prop where
  broadcaster : sv.broadcaster = log.foldl Broadcaster.publish (.ofCapacity capacity)
  sequence : log.map Snapshot.sequence = List.range' 1 log.length
  current : log.getLast? = some sv.current
  latest : sv.broadcaster.latest = some sv.current

/-- One snapshot is published where something succeeds, and nothing where it does not. -/
structure PublishesIf (succeeds : Prop) (sv sv' : Service) : Prop where
  one : succeeds → sv'.current.sequence = sv.current.sequence + 1 ∧
    sv'.broadcaster = sv.broadcaster.publish sv'.current
  none : ¬ succeeds → sv.Keeps sv'

theorem latest_foldl_publish {log : List Snapshot} {b : Broadcaster} :
    (log.foldl Broadcaster.publish b).latest = log.getLast?.or b.latest := by
  induction log using List.reverseRecOn with
  | nil => rfl
  | append_singleton log last ih => rw [List.foldl_concat, List.getLast?_concat]; rfl

theorem start_eq_ok {m : Machine} {capacity : Nat} (h : start m capacity now = .ok sv) :
    sv.current = .ofSession sv.session 1 .start ∧
      sv.broadcaster = (Broadcaster.ofCapacity capacity).publish sv.current := by
  obtain ⟨session, _, h⟩ := bind_eq_ok.mp h
  cases h
  exact ⟨rfl, rfl⟩

theorem publishesIf_handle : sv.PublishesIf
    (r.commits = true ∧ ∃ reply, (sv.handle r now).2 = .ok reply) (sv.handle r now).1 := by
  rcases handle_cases sv r now with ⟨session, cause, _, hcommits, hhandle⟩ | ⟨_, hkeeps, hfails⟩
  · rw [hhandle]
    exact ⟨fun _ => ⟨rfl, rfl⟩, fun h => absurd ⟨hcommits, _, rfl⟩ h⟩
  · exact ⟨fun h => absurd h hfails, fun _ => hkeeps⟩

theorem publishesIf_fire : sv.PublishesIf
    (∃ state, (sv.session.fireTimer key clock).2 = .ok (some state)) (fire clock sv key) := by
  rcases fire_cases sv key clock with ⟨session, _, hdelivers, hfire⟩ | ⟨_, hkeeps, hfails⟩
  · rw [hfire]
    exact ⟨fun _ => ⟨rfl, rfl⟩, fun h => absurd hdelivers h⟩
  · exact ⟨fun ⟨state, h⟩ => absurd h (hfails state), fun _ => hkeeps⟩

/-- **The published view never drifts from the session.**  After any course of requests and
wake-ups the current snapshot tells what the session is, and all that was published is the
start and what the course made of the session, each once, in order and numbered without a gap.
A request publishes one snapshot if it is to change the session and succeeds, and answers with
it, and a timer of a batch if it is delivered; otherwise they publish nothing. -/
theorem mirrors_after {m : Machine} {capacity : Nat} (hstart : start m capacity now = .ok sv)
    (past : List Occurrence) :
    (sv.after past).Mirrors ∧
    (sv.after past).Published capacity
      (Snapshot.numbered 1 ((sv.session, .start) :: sv.changesIn past)) ∧
    (∀ r now, (sv.after past).PublishesIf
        (r.commits = true ∧ ∃ reply, ((sv.after past).handle r now).2 = .ok reply)
        ((sv.after past).handle r now).1 ∧
      ∀ reply, r.commits = true → ((sv.after past).handle r now).2 = .ok reply →
        reply = .snapshot ((sv.after past).handle r now).1.current) ∧
    ∀ before key clock, ((sv.after past).fireAll before).PublishesIf
      (∃ state, (((sv.after past).fireAll before).session.fireTimer key clock).2 = .ok (some state))
      (fire clock ((sv.after past).fireAll before) key) := by
  obtain ⟨hcurrent, hbroadcaster⟩ := start_eq_ok hstart
  have hpast : sv.Publishes _ _ := publishes_after past
  have hfirst : sv.current.sequence + 1 = 2 := by rw [hcurrent]; rfl
  have hlog : Snapshot.numbered 1 ((sv.session, .start) :: sv.changesIn past) =
      sv.current :: Snapshot.numbered 2 (sv.changesIn past) := by
    rw [Snapshot.numbered, ← hcurrent]
  have hfold : (sv.after past).broadcaster =
      (Snapshot.numbered 1 ((sv.session, .start) :: sv.changesIn past)).foldl
        Broadcaster.publish (.ofCapacity capacity) := by
    rw [hpast.broadcaster, hbroadcaster, hfirst, hlog, List.foldl_cons]
  have hlast : (Snapshot.numbered 1 ((sv.session, .start) :: sv.changesIn past)).getLast? =
      some (sv.after past).current := by
    rw [hpast.current, hfirst, hlog, List.getLast?_cons]
  refine ⟨hpast.mirrors (mirrors_of_ofSession hcurrent), ⟨hfold, ?_, hlast, ?_⟩,
    fun r now => ⟨publishesIf_handle, fun reply hcommits hreply => ?_⟩,
    fun before key clock => publishesIf_fire⟩
  · rw [sequence_numbered, length_numbered]
  · rw [hfold, latest_foldl_publish, hlast]
    rfl
  · rcases handle_cases (sv.after past) r now with ⟨_, _, _, _, hhandle⟩ | ⟨_, _, hfails⟩
    · rw [hhandle] at hreply ⊢
      cases hreply
      rfl
    · exact absurd ⟨hcommits, reply, hreply⟩ hfails

/-- A kettle is filled, looked at, and left until both of its timers are due.  The first of them
fails. -/
def kettleCourse : List Occurrence :=
  [.request (.updateContext (.object [("cups", .ofNat 2)])) 0, .request .snapshot 1,
    .wake (2000 * millisecond) fun _ => 2000 * millisecond]

/-- Three snapshots of the kettle are published: its start, its filling, and the second timer. -/
theorem mirrors_after_kettleChart : ∃ (m : Machine) (sv : Service),
    Definition.ofConfig kettleChart .null = .ok m.definition ∧ start m 4 0 = .ok sv ∧
      (sv.changesIn kettleCourse).map Prod.snd = [.context, .timer] ∧
      (sv.after kettleCourse).Mirrors ∧ (sv.after kettleCourse).current.sequence = 3 := by
  have h : (Definition.ofConfig kettleChart .null).toOption.any (fun d =>
      (start (Machine.ofDefinition d) 4 0).toOption.any fun sv =>
        decide ((sv.changesIn kettleCourse).map Prod.snd = [.context, .timer])) = true := by
    decide +kernel
  obtain ⟨d, hd, h⟩ := exists_of_run h
  obtain ⟨sv, hsv, h⟩ := exists_of_run h
  have hcauses := of_decide_eq_true h
  obtain ⟨hmirrors, hpublished, -⟩ := mirrors_after hsv kettleCourse
  refine ⟨Machine.ofDefinition d, sv, hd, hsv, hcauses, hmirrors, ?_⟩
  have hlength : (sv.changesIn kettleCourse).length = 2 := by
    rw [← List.length_map, hcauses]
    rfl
  have hlast := congrArg (Option.map Snapshot.sequence) hpublished.current
  rw [← List.getLast?_map, hpublished.sequence, length_numbered, List.length_cons, hlength] at hlast
  exact (Option.some.inj hlast).symm

end Service

end Statechart
