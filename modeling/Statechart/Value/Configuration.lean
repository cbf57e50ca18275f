/-
State values and configurations.

`ofConfiguration` writes a set of active nodes as a nested value, from the root down;
`toConfiguration` reads a value back.  The reader takes the ids of the leaves, adds
everything above them, and then asks of every active node that it has as many active
children as its kind wants: one of a compound node, all regions of a parallel one.
-/
import Statechart.Error
import Statechart.Tree.Basic

namespace Statechart.StateValue

/-- The value of what is active below a node. -/
def ofNode (t : Tree) (config : NodeSet) (i : Nat) : Except TransitionFault StateValue :=
  match t.kind i with
  | .compound =>
    match _h : (t.regions i).find? (fun c => decide (c ∈ config)) with
    | none => .error (.noActiveChild (t.node i).id)
    | some c =>
      if t.isLeaf c then .ok (.leaf (t.node c).key)
      else do
        let below ← ofNode t config c
        return .branch [((t.node c).key, below)]
  | .parallel => do
    let entries ← (t.regions i).attach.mapM fun c => do
      let below ← ofNode t config c.1
      return ((t.node c.1).key, below)
    return ofEntries entries
  | _ => .ok (.branch [])
termination_by t.size - i
decreasing_by
  · have := Tree.lt_of_child (Tree.children_of_mem_regions (List.mem_of_find?_eq_some _h)).1
    omega
  · have := Tree.lt_of_child (Tree.children_of_mem_regions c.2).1
    omega

/-- The value of a configuration. -/
def ofConfiguration (t : Tree) (config : NodeSet) : Except TransitionFault StateValue :=
  ofNode t config Tree.root

/-- Adds the leaf with an id, and everything above it. -/
def addLeaf (t : Tree) (config : NodeSet) (id : String) : Except TransitionFault NodeSet :=
  match t.lookup id with
  | none => .error (.unknownState id)
  | some i =>
    if i ≠ Tree.root && !t.isLeaf i then .error (.notLeaf id)
    else .ok ((config.insert i).insertMany (t.ancestors i))

/-- Whether a node has as many active children as its kind wants. -/
def fits (t : Tree) (config : NodeSet) (i : Nat) : Bool :=
  let active := (t.children i).countP fun c => decide (c ∈ config)
  match t.kind i with
  | .compound => active == 1
  | .parallel => active == (t.regions i).length
  | _ => true

/-- The configuration that a value describes. -/
def toConfiguration (t : Tree) (v : StateValue) : Except TransitionFault NodeSet := do
  let ids := (v.activeIds (t.node Tree.root).id).toList
  let config ← ids.foldlM (addLeaf t) (SortedSet.empty.insert Tree.root)
  match config.toList.find? (fun i => !fits t config i) with
  | none => return config
  | some i => throw (.notConfiguration v (t.node i).id)

end Statechart.StateValue
