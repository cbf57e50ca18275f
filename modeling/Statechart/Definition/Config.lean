/-
A machine as it is written, before anything about it is checked.

States and transitions are listed in the order they are written, and keys that are
written twice are kept, so that they can be refused.
-/
import Statechart.Json.Basic
import Statechart.Guard.Basic
import Statechart.Tree.Kind

namespace Statechart

/-- The type that a state is given. -/
inductive StateType
  | atomic
  | compound
  | parallel
  | final
  | history
deriving DecidableEq

/-- The type with a name. -/
def StateType.ofName? : String → Option StateType
  | "atomic" => some .atomic
  | "compound" => some .compound
  | "parallel" => some .parallel
  | "final" => some .final
  | "history" => some .history
  | _ => none

/-- The history kind with a name. -/
def HistoryKind.ofName? : String → Option HistoryKind
  | "shallow" => some .shallow
  | "deep" => some .deep
  | _ => none

/-- The history mode that a state is given. -/
inductive HistoryConfig
  | flag (on : Bool)
  | mode (kind : HistoryKind)

/-- The kind that a history mode asks for; the bare flag is shallow. -/
def HistoryConfig.asked : HistoryConfig → Option HistoryKind
  | .flag true => some .shallow
  | .flag false => none
  | .mode kind => some kind

/-- A guard as it is written. -/
inductive GuardConfig
  | source (text : String)
  | named (name : String)

/-- The guard that is meant. -/
def GuardConfig.parse : GuardConfig → Except GuardFault Guard
  | .source text => Guard.parse text
  | .named name => .ok (.named name)

/-- A candidate as it is written. -/
structure CandidateConfig where
  target : Option String
  guard : Option GuardConfig
  actions : List Action

/-- A candidate that does nothing. -/
def CandidateConfig.idle : CandidateConfig := ⟨none, none, []⟩

/-- The candidates for one event, in order. -/
abbrev TransitionConfig := List CandidateConfig

/-- A state as it is written. -/
structure StateConfig where
  id : Option String
  key : Option String
  initial : Option String
  type : Option StateType
  parallel : Bool
  history : Option HistoryConfig
  states : List (String × StateConfig)
  on : List (String × TransitionConfig)
  /-- Delayed transitions by their delay. -/
  after : List (String × TransitionConfig)
  onDone : Option TransitionConfig
  entry : List Action
  exit : List Action
  /-- The initial context, which counts on the root alone. -/
  context : Option Json

end Statechart
