/-
Settings of the tools.

Each setting has a value of its own if nothing else is said; a file and then the
environment may change it.
-/
import Statechart.Machine
import Statechart.Text.Counting

namespace Statechart

/-- The settings. -/
structure Settings where
  /-- How many steps may follow one event. -/
  transientLimit : Nat
  /-- How many requests may wait for the service. -/
  queueCapacity : Nat
  /-- How many snapshots are kept for a slow receiver. -/
  broadcastCapacity : Nat
  /-- The file of the machine. -/
  machine : Option String
  /-- The file with the lines typed before. -/
  historyFile : Option String
  /-- Whether output is coloured. -/
  color : Bool
  deriving DecidableEq

/-- A setting that has to be positive. -/
inductive Capacity
  | transientLimit
  | queue
  | broadcast
  deriving DecidableEq

/-- The name of such a setting in a file. -/
def Capacity.name : Capacity → String
  | .transientLimit => "interpreter.transient_limit"
  | .queue => "runtime.queue_capacity"
  | .broadcast => "runtime.broadcast_capacity"

/-- Why there are no settings. -/
inductive SettingsError
  /-- The file cannot be read. -/
  | unreadable
  /-- The file does not hold settings. -/
  | malformed
  /-- A setting is zero that has to be positive. -/
  | zero (capacity : Capacity)

/-- The text shown for a setting that is zero. -/
def Capacity.zeroMessage (c : Capacity) : String :=
  "configuration validation failed: " ++ c.name ++ " must be at least 1"

/-- The variables of the environment. -/
abbrev Variables := String → Option String

namespace Settings

/-- The settings if nothing is said. -/
def standard : Settings where
  transientLimit := Machine.defaultLimit
  queueCapacity := 64
  broadcastCapacity := 256
  machine := none
  historyFile := none
  color := true

/-- The variables that change settings. -/
def variableNames : List String :=
  ["STATEVIZ_TRANSIENT_LIMIT", "STATEVIZ_QUEUE_CAPACITY", "STATEVIZ_BROADCAST_CAPACITY",
    "STATEVIZ_MACHINE", "STATEVIZ_COLOR"]

/-- The number that a variable holds, or else the one there is. -/
def numberFrom (var : Variables) (name : String) (n : Nat) : Nat :=
  match var name with
  | none => n
  | some text => (Text.word? text.toList).getD n

/-- Whether a text switches something on. -/
def isOn (text : String) : Bool :=
  text == "1" || text.toLower == "true"

/-- The settings as the environment changes them.  A variable that does not hold a
number changes none, an empty one no file name. -/
def override (s : Settings) (var : Variables) : Settings :=
  { s with
    transientLimit := numberFrom var "STATEVIZ_TRANSIENT_LIMIT" s.transientLimit
    queueCapacity := numberFrom var "STATEVIZ_QUEUE_CAPACITY" s.queueCapacity
    broadcastCapacity := numberFrom var "STATEVIZ_BROADCAST_CAPACITY" s.broadcastCapacity
    machine :=
      match var "STATEVIZ_MACHINE" with
      | none => s.machine
      | some path => if path.isEmpty then s.machine else some path
    color :=
      match var "STATEVIZ_COLOR" with
      | none => s.color
      | some text => isOn text }

/-- The first setting that is zero and must not be. -/
def check (s : Settings) : Except SettingsError Unit :=
  if s.transientLimit = 0 then .error (.zero .transientLimit)
  else if s.queueCapacity = 0 then .error (.zero .queue)
  else if s.broadcastCapacity = 0 then .error (.zero .broadcast)
  else .ok ()

/-- The most requests that may wait for a service. -/
def largestQueue : Nat := Nat.pow 2 61 - 1

/-- The most snapshots that a service can set out to keep, which are a power of two. -/
def largestBroadcast : Nat := Nat.pow 2 57

/-- Whether a service with the capacities can be set up at all. -/
def fitService (s : Settings) : Bool :=
  s.queueCapacity ≤ largestQueue && s.broadcastCapacity ≤ largestBroadcast

end Settings

end Statechart
