/-
Publishing snapshots to subscribers.

A subscription has a number, and lasts until it is removed.  Its receiver holds the
filter and a place in the channel, and finds nothing once the subscription is gone.
-/
import Statechart.Order.SortedMap
import Statechart.Service.Channel
import Statechart.Service.Snapshot

namespace Statechart

/-- The snapshots published lately, and the subscriptions. -/
structure Broadcaster where
  channel : Channel Snapshot
  /-- The snapshot published last. -/
  latest : Option Snapshot
  /-- The subscriptions by number. -/
  subscriptions : SortedMap Nat SnapshotFilter
  /-- How many subscriptions there were in all. -/
  issued : Nat

/-- The receiving end of a subscription. -/
structure Receiver where
  subscription : Nat
  filter : SnapshotFilter
  /-- How many snapshots came before the next one to look at. -/
  position : Nat

namespace Broadcaster

/-- A broadcaster that keeps at least `capacity` snapshots for slow receivers. -/
def ofCapacity (capacity : Nat) : Broadcaster :=
  ⟨.ofCapacity capacity, none, .empty, 0⟩

/-- Subscribes to the snapshots published from now on. -/
def subscribe (b : Broadcaster) (filter : SnapshotFilter) : Broadcaster × Receiver :=
  ({ b with
      subscriptions := b.subscriptions.insert b.issued filter
      issued := b.issued + 1 },
    ⟨b.issued, filter, b.channel.sent⟩)

/-- Whether a subscription is there. -/
def isActive (b : Broadcaster) (subscription : Nat) : Bool :=
  b.subscriptions.contains subscription

/-- Removes a subscription. -/
def unsubscribe (b : Broadcaster) (subscription : Nat) : Broadcaster :=
  { b with subscriptions := b.subscriptions.erase subscription }

/-- Publishes a snapshot. -/
def publish (b : Broadcaster) (s : Snapshot) : Broadcaster :=
  { b with channel := b.channel.send s, latest := some s }

/-- How many subscriptions there are. -/
def size (b : Broadcaster) : Nat := b.subscriptions.size

end Broadcaster

namespace Receiver

/-- The first snapshot that a filter lets pass, and the position after it; if there is
none, the position after all. -/
def firstAccepted (filter : SnapshotFilter) (position : Nat) :
    List Snapshot → Nat × Option Snapshot
  | [] => (position, none)
  | s :: rest =>
    if filter.accepts s then (position + 1, some s)
    else firstAccepted filter (position + 1) rest

/-- The next snapshot that is there and wanted, while the subscription lasts, if nobody else has a
turn before it is found. -/
def tryReceive (r : Receiver) (b : Broadcaster) : Receiver × Option Snapshot :=
  if b.isActive r.subscription then
    let (position, found) :=
      firstAccepted r.filter (b.channel.position r.position) (b.channel.unread r.position)
    ({ r with position }, found)
  else
    (r, none)

end Receiver

end Statechart
