/-
Subscribers at work.

Those who publish and those who receive share one broadcaster and take turns.  Most calls are
over in one turn, but those of a receiver are not.  Both of them look whether the subscription is
there and then read the channel.  The one that waits for a snapshot looks again before it hands
out what it took.  The one that takes what is there hands it out at once.  Between any two of
these steps others may have their turn, and take the subscription away.
-/
import Statechart.Service.Broadcaster

namespace Statechart

namespace Channel

variable {α : Type}

/-- What a reader finds in a channel. -/
inductive Found (α : Type)
  | message (a : α)
  /-- What was next is not kept any more. -/
  | lagged
  | empty

/-- Reads a channel once at a position, and gives the position after that.  A reader that fell
behind is told so, and goes on at the oldest message that is kept. -/
def read (c : Channel α) (reader : Nat) : Found α × Nat :=
  if reader < c.oldest then (.lagged, c.oldest)
  else
    match c.unread reader with
    | a :: _ => (.message a, reader + 1)
    | [] => (.empty, reader)

end Channel

/-- How far a call for a snapshot is, and whether it waits for one. -/
inductive Call
  /-- There is none. -/
  | idle
  /-- It is about to look whether the subscription is there. -/
  | asks (waits : Bool)
  /-- It has looked, and is about to read the channel. -/
  | reads (waits : Bool)
  /-- It waited and took a snapshot, and is about to look whether the subscription is still
  there. -/
  | holds (s : Snapshot)

/-- A receiver with the call that it is in. -/
structure Listener where
  receiver : Receiver
  call : Call

/-- What the owner of a receiver does. -/
inductive Act
  /-- Begins to take the next snapshot that is there. -/
  | tryReceive
  /-- Begins to wait for the next snapshot. -/
  | receive
  /-- Has the call go on by a step. -/
  | advance
  /-- Gives up waiting. -/
  | cancel

namespace Listener

/-- Ends a call with an answer. -/
def finish (l : Listener) (answer : Option Snapshot) : Listener × Option (Option Snapshot) :=
  ({ l with call := .idle }, some answer)

/-- Hands out a snapshot, or goes on with the next one if it is not wanted. -/
def handOut (l : Listener) (waits : Bool) (s : Snapshot) :
    Listener × Option (Option Snapshot) :=
  if l.receiver.filter.accepts s then l.finish (some s) else ({ l with call := .asks waits }, none)

/-- One step of a call, with its answer if that is the last one. -/
def advance (b : Broadcaster) (l : Listener) : Listener × Option (Option Snapshot) :=
  match l.call with
  | .idle => (l, none)
  | .asks waits =>
    if b.isActive l.receiver.subscription then ({ l with call := .reads waits }, none)
    else l.finish none
  | .reads waits =>
    match b.channel.read l.receiver.position with
    | (.message s, position) =>
      let l := { l with receiver := { l.receiver with position } }
      if waits then ({ l with call := .holds s }, none) else l.handOut false s
    | (.lagged, position) => (⟨{ l.receiver with position }, .asks waits⟩, none)
    | (.empty, _) => if waits then (l, none) else l.finish none
  | .holds s => if b.isActive l.receiver.subscription then l.handOut true s else l.finish none

/-- Does something with a receiver, and gives the answer if a call is over by that.  While it is
in a call nothing else can be done with it. -/
def act (b : Broadcaster) (l : Listener) (x : Act) : Listener × Option (Option Snapshot) :=
  match x, l.call with
  | .tryReceive, .idle => ({ l with call := .asks false }, none)
  | .receive, .idle => ({ l with call := .asks true }, none)
  | .advance, _ => l.advance b
  | .cancel, .reads true => ({ l with call := .idle }, none)
  | _, _ => (l, none)

end Listener

/-- A broadcaster with the receivers that are there, by their subscriptions. -/
structure Audience where
  broadcaster : Broadcaster
  listeners : SortedMap Nat Listener

/-- A turn of one of those that share a broadcaster. -/
inductive Move
  | subscribe (filter : SnapshotFilter)
  | publish (s : Snapshot)
  | unsubscribe (subscription : Nat)
  /-- Drops a receiver, and its subscription with it. -/
  | drop (subscription : Nat)
  /-- The owner of a receiver does something. -/
  | act (subscription : Nat) (x : Act)

namespace Audience

/-- A broadcaster without receivers. -/
def ofCapacity (capacity : Nat) : Audience := ⟨.ofCapacity capacity, .empty⟩

/-- Carries out a move.  If a call of a receiver is over by that, the answer is given with its
subscription. -/
def step (a : Audience) : Move → Audience × Option (Nat × Option Snapshot)
  | .subscribe filter =>
    let (broadcaster, receiver) := a.broadcaster.subscribe filter
    (⟨broadcaster, a.listeners.insert receiver.subscription ⟨receiver, .idle⟩⟩, none)
  | .publish s => ({ a with broadcaster := a.broadcaster.publish s }, none)
  | .unsubscribe n => ({ a with broadcaster := a.broadcaster.unsubscribe n }, none)
  | .drop n => (⟨a.broadcaster.unsubscribe n, a.listeners.erase n⟩, none)
  | .act n x =>
    match a.listeners.get? n with
    | some l =>
      let (l, answer) := l.act a.broadcaster x
      ({ a with listeners := a.listeners.insert n l }, answer.map (n, ·))
    | none => (a, none)

/-- What is there after moves in order. -/
def after (a : Audience) (moves : List Move) : Audience :=
  moves.foldl (fun a m => (a.step m).1) a

/-- The snapshot that an answer gives to the receiver of a subscription, if any. -/
def given (n : Nat) : Option (Nat × Option Snapshot) → List Snapshot
  | some (k, some s) => if k = n then [s] else []
  | _ => []

/-- The snapshots that a receiver returns in the course of moves. -/
def returned (n : Nat) : Audience → List Move → List Snapshot
  | _, [] => []
  | a, m :: rest => given n (a.step m).2 ++ returned n (a.step m).1 rest

end Audience

end Statechart
