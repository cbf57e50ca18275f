/-
Machines: a definition with its conditions, as a function from states to states.
-/
import Statechart.Definition.Basic
import Statechart.State
import Statechart.Step.Settle
import Statechart.Value.Configuration

namespace Statechart

/-- A definition with the conditions that its guards name. -/
structure Machine where
  definition : Definition
  table : GuardTable
  /-- How many steps may follow an event before it is given up. -/
  transientLimit : Nat

namespace Machine

/-- How many steps may follow an event if nothing else is said. -/
def defaultLimit : Nat := 100

/-- A definition without named conditions. -/
def ofDefinition (d : Definition) : Machine := ⟨d, SortedMap.empty, defaultLimit⟩

/-- The id of the root. -/
def id (m : Machine) : String := m.definition.name

/-- The tree of the definition. -/
def tree (m : Machine) : Tree := m.definition.tree

/-- A fault of a transition as an error. -/
def sound {α : Type} : Except TransitionFault α → Except Error α
  | .ok a => .ok a
  | .error fault => .error (.transition fault)

theorem sound_eq_ok {α : Type} {x : Except TransitionFault α} {a : α} :
    sound x = .ok a ↔ x = .ok a := by
  cases x with
  | error f => constructor <;> intro h <;> cases h
  | ok b => constructor <;> intro h <;> cases h <;> rfl

theorem sound_eq_error {α : Type} {x : Except TransitionFault α} {err : Error} :
    sound x = .error err ↔ ∃ f, x = .error f ∧ err = .transition f := by
  cases x with
  | error f =>
      constructor
      · intro h; cases h; exact ⟨f, rfl, rfl⟩
      · rintro ⟨_, h, rfl⟩; cases h; rfl
  | ok b =>
      constructor
      · intro h; cases h
      · rintro ⟨_, h, _⟩; cases h

/-- The configuration that a value describes. -/
def configuration (m : Machine) (v : StateValue) : Except Error NodeSet :=
  sound (v.toConfiguration m.tree)

/-- What the steps after an event depend on. -/
def surroundings (m : Machine) (context : Json) (event : Event) : Step.Surroundings :=
  ⟨m.tree, m.table, context, event⟩

/-- The state that steps which have come to rest lead to. -/
def finish (m : Machine) (context : Json) (event : Event) (s : Step) : Except Error State := do
  let value ← sound (StateValue.ofConfiguration m.tree s.config)
  return {
    value, context, event
    actions := s.actions
    changed := true
    done := s.done
    history := s.history
    timers := s.timers }

/-- Takes the steps that follow on their own, and ends them. -/
def settle (m : Machine) (context : Json) (event : Event) (s : Step) : Except Error State := do
  let s ← (m.surroundings context event).settle m.transientLimit m.transientLimit s
  m.finish context event s

/-- The steps that enter the root with its default descent. -/
def initialStep (m : Machine) : Step :=
  Step.enterAll m.tree (Step.start SortedSet.empty SortedMap.empty)
    (Entry.withDefaults m.tree SortedSet.empty Tree.root)

/-- The state that the machine starts in, at rest. -/
def initialState (m : Machine) : Except Error State :=
  m.settle m.definition.context (Event.named Event.initialName) m.initialStep

/-- The state that follows an event. -/
def transition (m : Machine) (s : State) (event : Event) : Except Error State :=
  if s.done then .ok (s.unchanged event)
  else do
    let config ← m.configuration s.value
    let selected ← (m.surroundings s.context event).select config event event.name
    if selected.isEmpty then return s.unchanged event
    else
      let step ← (Step.start config s.history).microstep m.tree selected
      m.settle s.context event step

/-- Whether a handler answers an event that comes from outside: one that is neither
eventless, nor a completion event, nor delayed. -/
def isExternal (h : Handler) : Bool :=
  !h.event.isEmpty && !Event.isDone h.event && h.candidates.all fun c => c.delay.isNone

/-- Whether a handler may do anything: a candidate has a target or actions. -/
def hasEffect (h : Handler) : Bool :=
  h.candidates.any fun c => c.target.isSome || !c.actions.isEmpty

/-- The events that some active node answers with an effect, in document order; a machine
that is done answers none. -/
def nextEvents (m : Machine) (s : State) : Except Error (List String) :=
  if s.done then .ok []
  else do
    let config ← m.configuration s.value
    let handlers := config.toList.flatMap fun i => (m.tree.node i).handlers
    return Definition.firsts []
      ((handlers.filter fun h => isExternal h && hasEffect h).map Handler.event)

/-- Whether an event is one of those. -/
def canHandle (m : Machine) (s : State) (event : String) : Except Error Bool := do
  return (← m.nextEvents s).contains event

end Machine

end Statechart
