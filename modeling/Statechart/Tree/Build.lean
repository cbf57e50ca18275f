/-
The tree of a definition.

`Draft.check` walks a definition from top to bottom and refuses its first fault; what
passes is a `Draft`, a tree whose nodes hold what they need but their numbers.
`Draft.nodes` lays a draft out in document order.  Last, every target has to name a
node of the tree.
-/
import Statechart.Definition.Config
import Statechart.Error
import Statechart.Text.Counting
import Statechart.Tree.Basic

namespace Statechart

/-- A candidate before its node has a number. -/
structure DraftCandidate where
  target : Option String
  guard : Option Guard
  actions : List Action

/-- The candidates for one event before their node has a number. -/
structure DraftHandler where
  event : String
  delay : Option Nat
  candidates : List DraftCandidate

/-- A node before it has a number, with everything below it. -/
structure Draft where
  id : String
  key : String
  givenId : Option String
  kind : NodeKind
  initial : Option String
  entry : List Action
  exit : List Action
  handlers : List DraftHandler
  children : List Draft

/-- Refuses keys that are empty or hold a character with a meaning in paths. -/
def checkKey (key : String) : Except Error Unit :=
  if key.isEmpty then .error (.definition .emptyKey)
  else if key.toList.any (fun c => c == '.' || c == '#') then
    .error (.definition (.reservedKey key))
  else .ok ()

/-- Refuses an id that another node has, and notes it. -/
def noteId (seen : List String) (id : String) : Except Error (List String) :=
  if id ∈ seen then .error (.definition (.duplicateId id)) else .ok (id :: seen)

namespace StateConfig

/-- The history kind that is asked for. -/
def historyMode (c : StateConfig) : Option HistoryKind :=
  c.history.bind HistoryConfig.asked

/-- The kind of a state: its type if it is given one, else what its history mode, its
flag and its states suggest. -/
def inferredKind (c : StateConfig) : NodeKind :=
  match c.type with
  | some .atomic => .atomic
  | some .compound => .compound
  | some .parallel => .parallel
  | some .final => .final
  | some .history => .history (c.historyMode.getD .shallow)
  | none =>
    match c.historyMode with
    | some mode => .history mode
    | none =>
      if c.parallel then .parallel
      else if c.states.isEmpty then .atomic
      else .compound

/-- The kind of a state that has nothing at odds with it. -/
def checkedKind (c : StateConfig) (id : String) : Except DefinitionFault NodeKind :=
  let kind := c.inferredKind
  if c.parallel && kind ≠ .parallel then .error (.notParallel id kind)
  else if c.historyMode.isSome && !kind.isHistory then .error (.notHistory id kind)
  else if kind = .compound && c.states.isEmpty then .error (.noChildren id)
  else if kind.isHistory && (!c.on.isEmpty || !c.after.isEmpty || c.onDone.isSome) then
    .error (.historyWithTransitions id)
  else .ok kind

end StateConfig

/-- A candidate whose guard has been parsed. -/
def CandidateConfig.draft (c : CandidateConfig) : Except Error DraftCandidate :=
  match c.guard with
  | none => .ok ⟨c.target, none, c.actions⟩
  | some guard =>
    match guard.parse with
    | .ok guard => .ok ⟨c.target, some guard, c.actions⟩
    | .error fault => .error (.guardText fault)

namespace DraftHandler

/-- Adds the candidates for an event, which may be declared once only. -/
def add (id : String) (handlers : List DraftHandler) (event : String) (delay : Option Nat)
    (transition : TransitionConfig) : Except Error (List DraftHandler) :=
  if handlers.any (fun h => h.event == event) then
    .error (.definition (.repeatedEvent id event))
  else do
    let candidates ← transition.mapM CandidateConfig.draft
    return handlers ++ [⟨event, delay, candidates⟩]

/-- Adds the candidates for a delay. -/
def addDelayed (id : String) (handlers : List DraftHandler)
    (entry : String × TransitionConfig) : Except Error (List DraftHandler) :=
  match Text.word? (Text.trim entry.1).toList with
  | none => .error (.definition (.badDelay entry.1 id))
  | some delay => add id handlers (Event.afterName delay id) (some delay) entry.2

/-- The handlers of a state: those of its events, its delays, and its completion. -/
def ofConfig (id : String) (c : StateConfig) : Except Error (List DraftHandler) := do
  let handlers ← c.on.foldlM (fun hs e => add id hs e.1 none e.2) []
  let handlers ← c.after.foldlM (addDelayed id) handlers
  match c.onDone with
  | some transition => add id handlers (Event.doneName id) none transition
  | none => return handlers

end DraftHandler

namespace Draft

/-- The child that a compound node enters by itself: it has to be named, to be there,
and to be no history node. -/
def checkInitial (id : String) (kind : NodeKind) (initial : Option String)
    (children : List Draft) : Except DefinitionFault (Option String) :=
  if kind ≠ .compound then .ok none
  else
    match initial with
    | none => .error (.noInitial id)
    | some initial =>
      match children.find? (fun c => c.key == initial) with
      | none => .error (.initialNotChild initial id)
      | some child =>
        if child.kind.isHistory then .error (.initialIsHistory initial id)
        else .ok (some initial)

/-- A fault of a definition as an error. -/
def refuse {α : Type} : Except DefinitionFault α → Except Error α
  | .ok a => .ok a
  | .error fault => .error (.definition fault)

/-- What can be said of a node before its children: its kind, and the ids in use with
its own. -/
def checkHead (isRoot : Bool) (id : String) (c : StateConfig) (seen : List String) :
    Except Error (NodeKind × List String) := do
  let kind ← refuse (c.checkedKind id)
  if isRoot && kind.isHistory then throw (.definition .rootIsHistory)
  if !c.states.isEmpty && !kind.hasChildren then
    throw (.definition (.childrenNotAllowed kind id))
  let seen ← noteId seen id
  match (if isRoot then none else c.id) with
  | none => return (kind, seen)
  | some givenId =>
    checkKey givenId
    return (kind, ← noteId seen givenId)

mutual

/-- Checks a state and everything below it.  The ids that are in use come with it and
go on with the draft. -/
def check (isRoot : Bool) (key id : String) (seen : List String) :
    StateConfig → Except Error (Draft × List String)
  | ⟨givenId, k, initial, type, parallel, history, states, on, after, onDone, entry, exit,
      context⟩ => do
    let c : StateConfig :=
      ⟨givenId, k, initial, type, parallel, history, states, on, after, onDone, entry, exit,
        context⟩
    let (kind, seen) ← checkHead isRoot id c seen
    let handlers ← DraftHandler.ofConfig id c
    let (children, seen) ← checkChildren id [] seen states
    let initial ← refuse (checkInitial id kind initial children)
    let givenId := if isRoot then none else givenId
    return (⟨id, key, givenId, kind, initial, entry, exit, handlers, children⟩, seen)

/-- Checks the states of a node, beside those that have been checked. -/
def checkChildren (id : String) (before : List Draft) (seen : List String) :
    List (String × StateConfig) → Except Error (List Draft × List String)
  | [] => .ok (before, seen)
  | (key, config) :: rest => do
    checkKey key
    if before.any (fun d => d.key == key) then throw (.definition (.duplicateChild key id))
    let (draft, seen) ← check false key (id ++ "." ++ key) seen config
    checkChildren id (before ++ [draft]) seen rest

end

/-- The handlers of a node with a number. -/
def handlersAt (source : Nat) (handlers : List DraftHandler) : List Handler :=
  handlers.map fun h =>
    { event := h.event
      candidates := h.candidates.mapIdx fun i c =>
        ⟨h.event, source, c.target, c.guard, c.actions, h.delay, i⟩ }

mutual

/-- The number of nodes of a draft. -/
def size : Draft → Nat
  | ⟨_, _, _, _, _, _, _, _, children⟩ => sizes children + 1

/-- The number of nodes of some drafts. -/
def sizes : List Draft → Nat
  | [] => 0
  | d :: rest => size d + sizes rest

end

/-- The numbers of the drafts in a list, the first of which is `start`. -/
def starts (start : Nat) : List Draft → List Nat
  | [] => []
  | d :: rest => start :: starts (start + d.size) rest

mutual

/-- The nodes of a draft in document order, the first of which has the number `start`. -/
def nodes (start : Nat) (parent : Option Nat) (depth : Nat) : Draft → List Node
  | ⟨id, key, givenId, kind, initial, entry, exit, handlers, children⟩ =>
    { index := start
      id, key, givenId, kind, parent, initial, entry, exit, depth
      children := starts (start + 1) children
      handlers := handlersAt start handlers } ::
      allNodes (start + 1) start (depth + 1) children

/-- The nodes of some drafts in document order, with the parent of all of them. -/
def allNodes (start parent : Nat) (depth : Nat) : List Draft → List Node
  | [] => []
  | d :: rest => nodes start (some parent) depth d ++ allNodes (start + d.size) parent depth rest

end

mutual

theorem length_nodes (start : Nat) (parent : Option Nat) (depth : Nat) :
    ∀ d : Draft, (nodes start parent depth d).length = d.size
  | ⟨_, _, _, _, _, _, _, _, children⟩ => by
    simp [nodes, size, length_allNodes _ _ _ children]

theorem length_allNodes (start parent : Nat) (depth : Nat) :
    ∀ ds : List Draft, (allNodes start parent depth ds).length = sizes ds
  | [] => rfl
  | d :: rest => by
    simp [allNodes, sizes, length_nodes _ _ _ d, length_allNodes _ _ _ rest]

end

theorem size_pos (d : Draft) : 0 < d.size := by
  cases d
  simp [size]

/-- The numbers of drafts in a list lie where their nodes will stand. -/
theorem mem_starts {start c : Nat} {ds : List Draft} (h : c ∈ starts start ds) :
    start ≤ c ∧ c < start + sizes ds := by
  induction ds generalizing start with
  | nil => exact absurd h List.not_mem_nil
  | cons d rest ih =>
    have hpos := d.size_pos
    rw [sizes]
    rcases List.mem_cons.1 h with rfl | h
    · omega
    · have := ih h
      omega

/-- What holds of the nodes that are laid out from `start` on, up to `stop`. -/
structure Laid (start stop : Nat) (n : Node) : Prop where
  /-- The parent stands before the node. -/
  parent : ∀ p, n.parent = some p → p < n.index
  /-- The children stand after it, in the same stretch. -/
  children : ∀ c ∈ n.children, n.index < c ∧ c < stop

theorem Laid.mono {start stop start' stop' : Nat} {n : Node} (h : Laid start stop n)
    (hstop : stop ≤ stop') : Laid start' stop' n :=
  ⟨h.parent, fun c hc => ⟨(h.children c hc).1, Nat.lt_of_lt_of_le (h.children c hc).2 hstop⟩⟩

mutual

theorem laid_nodes (start : Nat) (parent : Option Nat) (depth : Nat)
    (hp : ∀ p, parent = some p → p < start) :
    ∀ d : Draft, ∀ n ∈ nodes start parent depth d, Laid start (start + d.size) n
  | ⟨_, _, _, _, _, _, _, _, children⟩, n, hn => by
    rw [nodes] at hn
    rw [size]
    rcases List.mem_cons.1 hn with rfl | hn
    · refine ⟨hp, fun c hc => ?_⟩
      have hrange := mem_starts hc
      have hstart : start < c := hrange.1
      exact ⟨hstart, by omega⟩
    · exact (laid_allNodes (start + 1) start (depth + 1) (Nat.lt_succ_self start) children n
        hn).mono (by omega)

theorem laid_allNodes (start parent : Nat) (depth : Nat) (hp : parent < start) :
    ∀ ds : List Draft, ∀ n ∈ allNodes start parent depth ds, Laid start (start + sizes ds) n
  | [], n, hn => absurd hn List.not_mem_nil
  | d :: rest, n, hn => by
    rw [sizes]
    rw [allNodes] at hn
    rcases List.mem_append.1 hn with hn | hn
    · exact (laid_nodes start (some parent) depth
        (fun p h => by cases h; exact hp) d n hn).mono (by omega)
    · exact (laid_allNodes (start + d.size) parent depth (by omega) rest n hn).mono (by omega)

end

mutual

theorem index_nodes (start : Nat) (parent : Option Nat) (depth : Nat) :
    ∀ d : Draft, ∀ i n, (nodes start parent depth d)[i]? = some n → n.index = start + i
  | ⟨_, _, _, _, _, _, _, _, children⟩, i, n, h => by
    rw [nodes] at h
    cases i with
    | zero =>
      rw [List.getElem?_cons_zero] at h
      cases h
      rfl
    | succ i =>
      rw [List.getElem?_cons_succ] at h
      have := index_allNodes (start + 1) start (depth + 1) children i n h
      omega

theorem index_allNodes (start parent : Nat) (depth : Nat) :
    ∀ ds : List Draft, ∀ i n, (allNodes start parent depth ds)[i]? = some n →
      n.index = start + i
  | [], i, n, h => by simp [allNodes] at h
  | d :: rest, i, n, h => by
    rw [allNodes] at h
    by_cases hi : i < (nodes start (some parent) depth d).length
    · rw [List.getElem?_append_left hi] at h
      exact index_nodes start (some parent) depth d i n h
    · rw [List.getElem?_append_right (Nat.le_of_not_lt hi)] at h
      have := index_allNodes (start + d.size) parent depth rest _ n h
      rw [length_nodes] at this hi
      omega

end

/-- The tree that a draft lays out. -/
def toTree (d : Draft) : Tree where
  nodes := (nodes 0 none 0 d).toArray
  nonempty := by
    rw [List.size_toArray, length_nodes]
    exact d.size_pos
  index_eq := fun i n h => by
    rw [List.getElem?_toArray] at h
    have := index_nodes 0 none 0 d i n h
    omega
  parent_lt := fun n hn =>
    (laid_nodes 0 none 0 (fun _ h => nomatch h) d n (List.mem_toArray.1 hn)).parent
  child_range := fun n hn c hc => by
    have := (laid_nodes 0 none 0 (fun _ h => nomatch h) d n
      (List.mem_toArray.1 hn)).children c hc
    rw [List.size_toArray, length_nodes]
    omega

end Draft

namespace Tree

/-- Whether a candidate has no target, or one that names a node. -/
def resolves (t : Tree) (c : Candidate) : Bool :=
  match c.target with
  | none => true
  | some target => (t.resolveTarget c.source target).isSome

/-- The candidates of a tree, by node and event in order. -/
def allCandidates (t : Tree) : List Candidate :=
  t.nodes.toList.flatMap fun n => n.handlers.flatMap Handler.candidates

/-- Refuses the first candidate whose target names no node. -/
def checkTargets (t : Tree) : Except DefinitionFault Unit :=
  match t.allCandidates.find? (fun c => !t.resolves c) with
  | none => .ok ()
  | some c => .error (.unknownTarget c.event (t.node c.source).id (c.target.getD ""))

/-- The tree of a machine, the root of which has the id `name`. -/
def build (name : String) (c : StateConfig) : Except Error Tree := do
  checkKey name
  let (draft, _) ← Draft.check true name name [] c
  let t := draft.toTree
  Draft.refuse t.checkTargets
  return t

end Tree

end Statechart
