/-
Kinds of nodes.
-/

namespace Statechart

/-- The name of an action. -/
abbrev Action := String

/-- How much a history node remembers. -/
inductive HistoryKind
  /-- The children of its parent that were active. -/
  | shallow
  /-- The leaves below its parent that were active. -/
  | deep
deriving DecidableEq

/-- The name of a history kind. -/
def HistoryKind.name : HistoryKind → String
  | .shallow => "shallow"
  | .deep => "deep"

/-- The kind of a node. -/
inductive NodeKind
  | atomic
  | compound
  | parallel
  | final
  | history (kind : HistoryKind)
deriving DecidableEq

namespace NodeKind

/-- The name of a kind. -/
def name : NodeKind → String
  | .atomic => "atomic"
  | .compound => "compound"
  | .parallel => "parallel"
  | .final => "final"
  | .history .shallow => "history"
  | .history .deep => "deep history"

/-- Whether nodes of the kind end a configuration: they are active with nothing below. -/
def isLeaf : NodeKind → Bool
  | .atomic => true
  | .final => true
  | _ => false

/-- Whether nodes of the kind are history nodes, which are never active. -/
def isHistory : NodeKind → Bool
  | .history _ => true
  | _ => false

/-- Whether nodes of the kind may have children. -/
def hasChildren : NodeKind → Bool
  | .compound => true
  | .parallel => true
  | _ => false

end NodeKind

end Statechart
