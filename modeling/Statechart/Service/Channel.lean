/-
A channel that keeps the latest messages.

Whoever reads it holds a position: how many messages came before the next one to be
read.  A reader that falls behind by more than the channel keeps goes on at the oldest
message that is kept.
-/

namespace Statechart

/-- The messages that readers have not all seen. -/
structure Channel (α : Type) where
  /-- How many messages are kept. -/
  capacity : Nat
  /-- How many messages were sent in all. -/
  sent : Nat
  /-- The latest of them, the oldest first. -/
  kept : List α
  kept_length : kept.length = min sent capacity

namespace Channel

variable {α : Type}

/-- A channel that keeps at least `n` messages. -/
def ofCapacity (n : Nat) : Channel α where
  capacity := n.nextPowerOfTwo
  sent := 0
  kept := []
  kept_length := by simp

/-- The channel with one more message, which may push out the oldest. -/
def send (c : Channel α) (a : α) : Channel α where
  capacity := c.capacity
  sent := c.sent + 1
  kept := (c.kept ++ [a]).drop (c.kept.length + 1 - c.capacity)
  kept_length := by
    have hlen := c.kept_length
    simp only [List.length_drop, List.length_append, List.length_singleton]
    omega

/-- The position of the oldest message that is kept. -/
def oldest (c : Channel α) : Nat :=
  c.sent - c.kept.length

/-- The position of a reader at its next message: further on if it fell behind. -/
def position (c : Channel α) (reader : Nat) : Nat :=
  max reader c.oldest

/-- The messages that a reader can still read, in order. -/
def unread (c : Channel α) (reader : Nat) : List α :=
  c.kept.drop (c.position reader - c.oldest)

end Channel

end Statechart
