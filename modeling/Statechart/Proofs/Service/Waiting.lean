/-
Calls that nobody disturbs, and the wait of a service.

A call for a snapshot takes many steps, and others may have their turn between them.
`Receiver.tryReceive` says at once what comes of a call that does not wait.  That is what its
steps come to when nobody else has a turn, and a call that waits differs only where there is
nothing to be found (`exists_steps_eq`).  A service that waits for the next snapshot makes such
calls, one after each wake-up, so that its wait is a course of moves of the receiver and of the
service (`exists_watches_receive`), and whatever holds of all courses of moves holds of it.
-/
import Statechart.Proofs.Service.Published
import Statechart.Proofs.Service.Stream

namespace Statechart

namespace Channel

variable {α : Type} {c : Channel α} {p : Nat}

theorem unread_succ {a : α} {rest : List α} (h : c.oldest ≤ p) (hnext : c.unread p = a :: rest) :
    c.unread (p + 1) = rest := by
  rw [unread, position_of_oldest_le h] at hnext
  rw [unread, position_of_oldest_le (Nat.le_succ_of_le h), Nat.succ_sub h, ← List.tail_drop, hnext,
    List.tail_cons]

end Channel

namespace Listener

variable {l l' : Listener} {b : Broadcaster} {p : Nat} {r : Receiver} {waits : Bool}

/-! ### A call that nobody disturbs -/

/-- The steps of a call, until it is over or for at most as many as given. -/
def steps (b : Broadcaster) : Nat → Listener → Listener × Option (Option Snapshot)
  | 0, l => (l, none)
  | k + 1, l =>
    match l.advance b with
    | (l, none) => steps b k l
    | (l, some answer) => (l, some answer)

theorem steps_succ {k : Nat} (h : l.advance b = (l', none)) : steps b (k + 1) l = steps b k l' := by
  rw [steps, h]

theorem steps_finish {k : Nat} {answer : Option Snapshot} (h : l.advance b = l'.finish answer) :
    steps b (k + 1) l = l'.finish answer := by
  rw [steps, h]
  rfl

/-- Where a call has come to that has looked through all that is there: it goes on to wait if it
found nothing and is one that waits, and otherwise it is over. -/
def looked (waits : Bool) (r : Receiver) (found : Option Snapshot) :
    Listener × Option (Option Snapshot) :=
  if waits && found.isNone then (⟨r, .reads true⟩, none) else finish ⟨r, .idle⟩ found

theorem advance_asks (hactive : b.isActive r.subscription = true) :
    advance b ⟨r, .asks waits⟩ = (⟨r, .reads waits⟩, none) := by
  simp only [advance, hactive, if_true]

theorem steps_handOut {call : Call} {s : Snapshot} {more : Nat}
    (h : l.advance b = handOut ⟨r, call⟩ waits s) : steps b (more + 1) l =
      if r.filter.accepts s then finish ⟨r, .idle⟩ (some s) else steps b more ⟨r, .asks waits⟩ := by
  by_cases haccepts : r.filter.accepts s = true
  · rw [if_pos haccepts]
    exact steps_finish (h.trans (if_pos haccepts))
  · rw [if_neg haccepts]
    exact steps_succ (h.trans (if_neg haccepts))

/-- A call that comes to a snapshot hands it out, or goes on with the next one. -/
theorem exists_steps_next {s : Snapshot} (waits : Bool)
    (hactive : b.isActive r.subscription = true)
    (hread : b.channel.read r.position = (.message s, p)) : ∃ k, ∀ more,
      steps b (more + k) ⟨r, .asks waits⟩ =
        if r.filter.accepts s then finish ⟨{ r with position := p }, .idle⟩ (some s)
        else steps b more ⟨{ r with position := p }, .asks waits⟩ := by
  cases waits with
  | true =>
      have htakes : advance b ⟨r, .reads true⟩ = (⟨{ r with position := p }, .holds s⟩, none) := by
        simp only [advance, hread, if_true]
      have hgives : advance b ⟨{ r with position := p }, .holds s⟩ =
          handOut ⟨{ r with position := p }, .holds s⟩ true s := by
        simp only [advance, hactive, if_true]
      refine ⟨3, fun more => ?_⟩
      rw [steps_succ (advance_asks hactive), steps_succ htakes]
      exact steps_handOut hgives
  | false =>
      have hgives : advance b ⟨r, .reads false⟩ =
          handOut ⟨{ r with position := p }, .reads false⟩ false s := by
        simp only [advance, hread, if_neg Bool.false_ne_true]
      refine ⟨2, fun more => ?_⟩
      rw [steps_succ (advance_asks hactive)]
      exact steps_handOut hgives

/-- A call that is subscribed and not behind looks through all that is there. -/
theorem exists_steps_looked (waits : Bool) (hactive : b.isActive r.subscription = true)
    (hp : b.channel.oldest ≤ p) : ∃ k, steps b k ⟨{ r with position := p }, .asks waits⟩ =
      looked waits { r with
        position := (Receiver.firstAccepted r.filter p (b.channel.unread p)).1 }
        (Receiver.firstAccepted r.filter p (b.channel.unread p)).2 := by
  induction hrest : b.channel.unread p generalizing p with
  | nil =>
      have hread : b.channel.read p = (.empty, p) := by
        rw [Channel.read, if_neg (Nat.not_lt.mpr hp), hrest]
      cases waits with
      | true => exact ⟨1, steps_succ (advance_asks hactive)⟩
      | false =>
          have hends : advance b ⟨{ r with position := p }, .reads false⟩ =
              finish ⟨{ r with position := p }, .reads false⟩ none := by
            simp only [advance, hread, if_neg Bool.false_ne_true]
          have hlooks : advance b ⟨{ r with position := p }, .asks false⟩ =
              (⟨{ r with position := p }, .reads false⟩, none) := advance_asks hactive
          exact ⟨2, (steps_succ hlooks).trans (steps_finish hends)⟩
  | cons s rest ih =>
      have hread : b.channel.read p = (.message s, p + 1) := by
        rw [Channel.read, if_neg (Nat.not_lt.mpr hp), hrest]
      obtain ⟨k, hk⟩ := exists_steps_next (r := { r with position := p }) waits hactive hread
      rw [Receiver.firstAccepted]
      by_cases haccepts : r.filter.accepts s = true
      · refine ⟨0 + k, ?_⟩
        rw [hk 0, if_pos haccepts, if_pos haccepts]
        cases waits <;> rfl
      · obtain ⟨more, hmore⟩ := ih (Nat.le_succ_of_le hp) (Channel.unread_succ hp hrest)
        exact ⟨more + k, by rw [hk more, if_neg haccepts, if_neg haccepts, hmore]⟩

/-- **A call that nobody disturbs comes to what `Receiver.tryReceive` says**, but that one that
waits stays where the other ends without a snapshot. -/
theorem exists_steps_eq (b : Broadcaster) (r : Receiver) (waits : Bool) :
    ∃ k, steps b k ⟨r, .asks waits⟩ =
      if b.isActive r.subscription then looked waits (r.tryReceive b).1 (r.tryReceive b).2
      else finish ⟨(r.tryReceive b).1, .idle⟩ (r.tryReceive b).2 := by
  unfold Receiver.tryReceive
  by_cases hactive : b.isActive r.subscription = true
  · rw [if_pos hactive, if_pos hactive]
    by_cases hbehind : r.position < b.channel.oldest
    · -- the first read of a call that fell behind takes it to the oldest snapshot
      have hlags : advance b ⟨r, .reads waits⟩ =
          (⟨{ r with position := b.channel.oldest }, .asks waits⟩, none) := by
        simp only [advance, Channel.read, if_pos hbehind]
      have hposition : b.channel.position r.position = b.channel.oldest :=
        Nat.max_eq_right (Nat.le_of_lt hbehind)
      obtain ⟨k, hk⟩ := exists_steps_looked waits hactive (Nat.le_refl b.channel.oldest)
      refine ⟨k + 2, ?_⟩
      rw [steps_succ (advance_asks hactive), steps_succ hlags, hk, Channel.unread, Channel.unread,
        hposition, Channel.position_of_oldest_le (Nat.le_refl _)]
    · have hle := Nat.le_of_not_lt hbehind
      obtain ⟨k, hk⟩ := exists_steps_looked waits hactive hle
      exact ⟨k, by rw [Channel.position_of_oldest_le hle]; exact hk⟩
  · rw [if_neg hactive, if_neg hactive]
    exact ⟨1, steps_finish (by simp only [advance, if_neg hactive, finish])⟩

/-- A call that does not wait and that nobody disturbs is over with what `Receiver.tryReceive`
says. -/
theorem exists_steps_tryReceive (b : Broadcaster) (r : Receiver) : ∃ k,
    steps b k ⟨r, .asks false⟩ = (⟨(r.tryReceive b).1, .idle⟩, some (r.tryReceive b).2) := by
  obtain ⟨k, hk⟩ := exists_steps_eq b r false
  refine ⟨k, hk.trans ?_⟩
  split <;> rfl

end Listener

/-! ### The wait of a service -/

namespace Audience

variable {a : Audience} {n : Nat} {l l' : Listener} {b b' : Broadcaster} {p q : List Move}
  {found found' : List Snapshot}

/-- In a course of moves nobody has a turn but those who publish and one receiver, which looks for
snapshots without waiting.  Told are the broadcaster and the receiver after it, and what the
receiver returned. -/
structure Watches (n : Nat) (a : Audience) (moves : List Move) (b : Broadcaster) (l : Listener)
    (found : List Snapshot) : Prop where
  movers : ∀ m ∈ moves, m = .act n .tryReceive ∨ m = .act n .advance ∨ ∃ s, m = .publish s
  broadcaster : (a.after moves).broadcaster = b
  listener : (a.after moves).listeners.get? n = some l
  returned : a.returned n moves = found

theorem Watches.trans (h : Watches n a p b l found) (h' : Watches n (a.after p) q b' l' found') :
    Watches n a (p ++ q) b' l' (found ++ found') := by
  have hafter : a.after (p ++ q) = (a.after p).after q := List.foldl_append
  refine ⟨fun m hm => ?_, ?_, ?_, ?_⟩
  · exact (List.mem_append.mp hm).elim (h.movers m) (h'.movers m)
  · rw [hafter, h'.broadcaster]
  · rw [hafter, h'.listener]
  · rw [returned_append, h.returned, h'.returned]

/-- One thing that the owner of a receiver does. -/
theorem watches_act {x : Act} (hx : x = .tryReceive ∨ x = .advance)
    (hl : a.listeners.get? n = some l) :
    Watches n a [.act n x] a.broadcaster (l.act a.broadcaster x).1
      (l.act a.broadcaster x).2.join.toList := by
  have hstep := step_act x hl
  refine ⟨fun m hm => ?_, ?_, ?_, ?_⟩
  · rw [List.mem_singleton] at hm
    subst hm
    exact hx.imp (congrArg _) fun hx => Or.inl (congrArg _ hx)
  · exact congrArg (·.1.broadcaster) hstep
  · show (a.step (.act n x)).1.listeners.get? n = _
    rw [hstep]
    exact SortedMap.get?_insert.trans (if_pos rfl)
  · rw [returned, returned, List.append_nil, hstep]
    show given n ((l.act a.broadcaster x).2.map (n, ·)) = _
    exact given_own

/-- The steps of a call. -/
theorem exists_watches_steps (k : Nat) (hb : a.broadcaster = b)
    (hl : a.listeners.get? n = some l) : ∃ moves,
      Watches n a moves b (l.steps b k).1 (l.steps b k).2.join.toList := by
  induction k generalizing a l with
  | zero => exact ⟨[], nofun, hb, hl, rfl⟩
  | succ k ih =>
      have hstep := watches_act (Or.inr rfl) hl
      rw [hb] at hstep
      rw [Listener.steps]
      cases hadvance : l.advance b with
      | mk l' answer =>
          have hact : l.act b .advance = (l', answer) := hadvance
          rw [hact] at hstep
          cases answer with
          | none =>
              obtain ⟨moves, hmoves⟩ := ih hstep.broadcaster hstep.listener
              exact ⟨_, hstep.trans hmoves⟩
          | some answer => exact ⟨_, hstep⟩

/-- A call that does not wait. -/
theorem exists_watches_tryReceive {r : Receiver} (hb : a.broadcaster = b)
    (hl : a.listeners.get? n = some ⟨r, .idle⟩) : ∃ moves,
      Watches n a moves b ⟨(r.tryReceive b).1, .idle⟩ (r.tryReceive b).2.toList := by
  have hbegins := watches_act (Or.inl rfl) hl
  rw [hb] at hbegins
  obtain ⟨k, hk⟩ := Listener.exists_steps_tryReceive b r
  obtain ⟨moves, hmoves⟩ := exists_watches_steps k hbegins.broadcaster hbegins.listener
  have hsteps : Listener.steps b k (Listener.act b ⟨r, .idle⟩ .tryReceive).1 = _ := hk
  rw [hsteps] at hmoves
  exact ⟨_, hbegins.trans hmoves⟩

theorem watches_publish (log : List Snapshot) (hl : a.listeners.get? n = some l) :
    Watches n a (log.map .publish) (log.foldl Broadcaster.publish a.broadcaster) l [] := by
  induction log generalizing a with
  | nil => exact ⟨nofun, rfl, hl, rfl⟩
  | cons s rest ih =>
      have hrest := ih (a := (a.step (.publish s)).1) hl
      refine ⟨fun m hm => ?_, hrest.broadcaster, hrest.listener, hrest.returned⟩
      rcases List.mem_cons.mp hm with rfl | hm
      · exact Or.inr (Or.inr ⟨s, rfl⟩)
      · exact hrest.movers m hm

end Audience

namespace Service

open Audience

/-- **The wait of a service is a course of moves**, in which only the receiver and those who
publish have a turn. -/
theorem exists_watches_receive (sv : Service) (r : Receiver) (now patience : Nat) {a : Audience}
    {n : Nat} (hb : a.broadcaster = sv.broadcaster) (hl : a.listeners.get? n = some ⟨r, .idle⟩) :
    ∃ moves, Watches n a moves (sv.receive r now patience).1.broadcaster
      ⟨(sv.receive r now patience).2.1, .idle⟩ (sv.receive r now patience).2.2.2.toList := by
  induction patience generalizing sv r now a with
  | zero => exact exists_watches_tryReceive hb hl
  | succ patience ih =>
      obtain ⟨looks, hlook⟩ := exists_watches_tryReceive hb hl
      rw [receive]
      dsimp only
      split
      · exact ⟨_, hlook⟩
      · rename_i hnothing
        have hnone : (r.tryReceive sv.broadcaster).2.toList = [] := by
          cases hfound : (r.tryReceive sv.broadcaster).2 with
          | none => rfl
          | some s => simp [hfound] at hnothing
        rw [hnone] at hlook
        split
        · exact ⟨_, hlook⟩
        · -- nothing was there, so the service wakes up, publishes, and looks again
          rename_i wake _
          have hfired : sv.Publishes _ (sv.fireDue wake) := fireDue_eq ▸ publishes_fireAll
          have hpublish := watches_publish
            (Snapshot.numbered (sv.current.sequence + 1)
              (sv.session.fired ((sv.session.dueTimers wake).map fun key => (key, wake))))
            hlook.listener
          rw [hlook.broadcaster, ← hfired.broadcaster] at hpublish
          have hlater := hlook.trans hpublish
          obtain ⟨moves, hmoves⟩ :=
            ih (sv.fireDue wake) _ wake hlater.broadcaster hlater.listener
          exact ⟨_, hlater.trans hmoves⟩

end Service

end Statechart
