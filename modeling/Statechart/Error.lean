/-
What can go wrong with a machine, by cause.

A definition is refused with its first fault; a machine that runs fails because of
a guard, because its steps do not come to rest, or because a state value does not
belong to it.  The wording of every cause stands here.
-/
import Statechart.Guard.Basic
import Statechart.Tree.Kind
import Statechart.Value.Basic

namespace Statechart

/-- Why a definition is refused. -/
inductive DefinitionFault
  | emptyKey
  | reservedKey (key : String)
  | contextNotObject
  | rootIsHistory
  | childrenNotAllowed (kind : NodeKind) (id : String)
  | duplicateId (id : String)
  | duplicateChild (key id : String)
  | notParallel (id : String) (kind : NodeKind)
  | notHistory (id : String) (kind : NodeKind)
  | noChildren (id : String)
  | historyWithTransitions (id : String)
  | repeatedEvent (id event : String)
  | badDelay (delay id : String)
  | noInitial (id : String)
  | initialNotChild (initial id : String)
  | initialIsHistory (initial id : String)
  | unknownTarget (event id target : String)

/-- Why a state value or a target does not belong to the machine. -/
inductive TransitionFault
  | unknownState (id : String)
  | notLeaf (id : String)
  | notConfiguration (value : StateValue) (id : String)
  | noActiveChild (id : String)
  | missingTarget (target id event : String)
  | patchNotObject

/-- What can go wrong. -/
inductive Error
  | definition (cause : DefinitionFault)
  | guardText (cause : GuardFault)
  | transition (cause : TransitionFault)
  | guard (cause : GuardFailure)
  /-- The steps after an event did not come to rest within the limit. -/
  | transientCycle (event : String) (limit : Nat)
  | json (fault : Json.Fault)

/-- The wording of a cause. -/
def DefinitionFault.message : DefinitionFault → String
  | .emptyKey => "state key cannot be empty"
  | .reservedKey key => s!"state key '{key}' cannot contain '.' or '#'"
  | .contextNotObject => "context must be a JSON object"
  | .rootIsHistory => "the root node cannot be a history node"
  | .childrenNotAllowed kind id => s!"{kind.name} node '{id}' cannot have child states"
  | .duplicateId id => s!"duplicate state id: {id}"
  | .duplicateChild key id => s!"duplicate state '{key}' in '{id}'"
  | .notParallel id kind => s!"state '{id}' is marked parallel but has type {kind.name}"
  | .notHistory id kind => s!"state '{id}' has a history mode but type {kind.name}"
  | .noChildren id => s!"compound state '{id}' has no child states"
  | .historyWithTransitions id => s!"history state '{id}' cannot have transitions"
  | .repeatedEvent id event => s!"state '{id}' declares event '{event}' more than once"
  | .badDelay delay id => s!"delay '{delay}' of state '{id}' is not a number of milliseconds"
  | .noInitial id => s!"compound state '{id}' has no initial state"
  | .initialNotChild initial id => s!"initial state '{initial}' of '{id}' is not a child state"
  | .initialIsHistory initial id =>
    s!"initial state '{initial}' of '{id}' cannot be a history state"
  | .unknownTarget event id target =>
    s!"transition '{event}' of '{id}' has unknown target '{target}'"

/-- The wording of a cause. -/
def TransitionFault.message : TransitionFault → String
  | .unknownState id => s!"unknown state '{id}'"
  | .notLeaf id => s!"state '{id}' is not an atomic or final state"
  | .notConfiguration value id =>
    s!"state value {value.display} is not a valid configuration of '{id}'"
  | .noActiveChild id => s!"compound state '{id}' has no active child"
  | .missingTarget target id event => s!"target '{target}' of '{id}' on '{event}' does not exist"
  | .patchNotObject => "context patch must be a JSON object"

namespace Error

/-- The wording of an error; a fault of JSON is worded by its kind alone. -/
def message : Error → String
  | .definition cause => "invalid machine definition: " ++ cause.message
  | .guardText cause => "invalid guard expression: " ++ cause.message
  | .transition cause => "transition failed: " ++ cause.message
  | .guard cause => s!"guard '{cause.guard}' failed: {cause.reason}"
  | .transientCycle event limit =>
    s!"non-terminating transient cycle: event '{event}' exceeded {limit} internal steps"
  | .json .malformed => "JSON error: malformed text"
  | .json .truncated => "JSON error: text ends too early"
  | .json .mismatched => "JSON error: unexpected shape"

/-- A stable code for scripts. -/
def code : Error → String
  | .definition _ => "INVALID_DEFINITION"
  | .guardText _ => "INVALID_DEFINITION"
  | .transition _ => "TRANSITION_ERROR"
  | .guard _ => "GUARD_ERROR"
  | .transientCycle _ _ => "TRANSIENT_CYCLE"
  | .json _ => "INVALID_DEFINITION"

/-- Whether the error is found when a definition is loaded, not when it runs. -/
def isDefinitionError : Error → Bool
  | .definition _ => true
  | .guardText _ => true
  | .json _ => true
  | _ => false

end Error

end Statechart
