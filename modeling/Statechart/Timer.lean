/-
Timers of delayed transitions.

A step says which timers it arms and cancels; the registry turns that into deadlines.
Time is counted in nanoseconds from some start, delays in milliseconds.  Timers that
are due are listed by deadline, and by key where deadlines are equal.
-/
import Statechart.Order.SortedMap
import Statechart.Order.SortedSet
import Statechart.Json.Basic

namespace Statechart

/-- What a timer waits for: an event, at a node. -/
structure TimerKey where
  node : String
  event : String
deriving DecidableEq

/-- Keys are in order of their nodes, and of their events at one node. -/
instance : Ord TimerKey where
  compare := compareLex (compareOn TimerKey.node) (compareOn TimerKey.event)

instance : Std.TransOrd TimerKey :=
  inferInstanceAs (Std.TransCmp (compareLex (compareOn TimerKey.node) (compareOn TimerKey.event)))

instance : Std.LawfulEqOrd TimerKey where
  compare_self := Std.ReflCmp.compare_self
  eq_of_compare := by
    intro a b h
    have hlex := compareLex_eq_eq.1 h
    cases a
    cases b
    simp only [compareOn] at hlex
    rw [Std.LawfulEqCmp.eq_of_compare hlex.1, Std.LawfulEqCmp.eq_of_compare hlex.2]

namespace TimerKey

/-- The key as it is shown. -/
def display (k : TimerKey) : String :=
  s!"{k.event} ({k.node})"

/-- The key as a value. -/
def toJson (k : TimerKey) : Json :=
  .object [("node", .string k.node), ("event", .string k.event)]

end TimerKey

/-- What a step does to a timer. -/
inductive TimerCommand
  /-- Starts it with a delay in milliseconds, again if it runs. -/
  | arm (key : TimerKey) (delay : Nat)
  | cancel (key : TimerKey)
deriving DecidableEq

namespace TimerCommand

/-- The timer that is meant. -/
def key : TimerCommand → TimerKey
  | .arm key _ => key
  | .cancel key => key

/-- The command as a value. -/
def toJson : TimerCommand → Json
  | .arm key delay =>
    .object [("op", .string "arm"), ("key", key.toJson), ("delay_ms", .ofNat delay)]
  | .cancel key => .object [("op", .string "cancel"), ("key", key.toJson)]

end TimerCommand

/-- A deadline with its timer. -/
structure Alarm where
  deadline : Nat
  key : TimerKey
deriving DecidableEq

/-- Alarms are in order of their deadlines, and of their keys at one deadline. -/
instance : Ord Alarm where
  compare := compareLex (compareOn Alarm.deadline) (compareOn Alarm.key)

instance : Std.TransOrd Alarm :=
  inferInstanceAs (Std.TransCmp (compareLex (compareOn Alarm.deadline) (compareOn Alarm.key)))

instance : Std.LawfulEqOrd Alarm where
  compare_self := Std.ReflCmp.compare_self
  eq_of_compare := by
    intro a b h
    have hlex := compareLex_eq_eq.1 h
    cases a
    cases b
    simp only [compareOn] at hlex
    rw [Std.LawfulEqCmp.eq_of_compare hlex.1, Std.LawfulEqCmp.eq_of_compare hlex.2]

/-- The deadlines of the timers that are armed. -/
abbrev TimerRegistry := SortedMap TimerKey Nat

namespace TimerRegistry

/-- The nanoseconds of a millisecond. -/
def millisecond : Nat := 1000000

/-- Arms a timer, again if it is armed. -/
def arm (r : TimerRegistry) (key : TimerKey) (delay now : Nat) : TimerRegistry :=
  r.insert key (now + delay * millisecond)

/-- Disarms a timer. -/
def cancel (r : TimerRegistry) (key : TimerKey) : TimerRegistry :=
  r.erase key

/-- Disarms every timer. -/
def clear (_ : TimerRegistry) : TimerRegistry :=
  SortedMap.empty

/-- Carries out a command. -/
def run (now : Nat) (r : TimerRegistry) : TimerCommand → TimerRegistry
  | .arm key delay => r.arm key delay now
  | .cancel key => r.cancel key

/-- Carries out the commands of a step in order. -/
def apply (r : TimerRegistry) (commands : List TimerCommand) (now : Nat) : TimerRegistry :=
  commands.foldl (run now) r

/-- The timers with their deadlines, the earliest first. -/
def alarms (r : TimerRegistry) : SortedSet Alarm :=
  .ofList (r.entries.map fun e => ⟨e.2, e.1⟩)

/-- The timers that are due, the earliest first. -/
def due (r : TimerRegistry) (now : Nat) : List TimerKey :=
  (r.alarms.toList.filter fun a => a.deadline ≤ now).map Alarm.key

/-- The earliest deadline. -/
def nextDeadline (r : TimerRegistry) : Option Nat :=
  r.alarms.toList.head?.map Alarm.deadline

end TimerRegistry

end Statechart
