/-
Nodes of a document.
-/
import Statechart.Yaml.Token

namespace Statechart.Yaml

/-- A node of a document. -/
inductive Node
  | scalar (style : Style) (tag : Option String) (text : String)
  | sequence (items : List Node)
  | mapping (pairs : List (Node × Node))
  /-- A node that others refer to. -/
  | anchored (index : Nat) (node : Node)
  /-- The node with an index. -/
  | reference (index : Nat)

namespace Node

/-- A node that is not written. -/
def absent : Node := .scalar .plain none ""

/-- Whether a node is a plain scalar without text. -/
def isAbsent : Node → Bool
  | .scalar .plain _ "" => true
  | _ => false

mutual

/-- The node in a tree that others refer to by an index: the one that begins last, if
several have it. -/
def find? (index : Nat) : Node → Option Node
  | .scalar _ _ _ => none
  | .sequence items => findItem? index items
  | .mapping pairs => findPair? index pairs
  | .anchored i node => (node.find? index).or (if i = index then some node else none)
  | .reference _ => none

/-- The same among items. -/
def findItem? (index : Nat) : List Node → Option Node
  | [] => none
  | n :: rest => (findItem? index rest).or (n.find? index)

/-- The same among pairs. -/
def findPair? (index : Nat) : List (Node × Node) → Option Node
  | [] => none
  | (k, v) :: rest => (findPair? index rest).or ((v.find? index).or (k.find? index))

end

/-- A node of a tree with its number taken off, or what it refers to. -/
def resolve (root : Node) : Node → Node
  | .anchored _ node => node
  | .reference index => (root.find? index).getD absent
  | node => node

end Node

/-! ### Nodes of tokens -/

/-- The beginnings of tags that handles stand for. -/
abbrev Handles := List (String × String)

/-- The handles that need no directive. -/
def standardHandles : Handles := [("!", "!"), ("!!", "tag:yaml.org,2002:")]

/-- The whole tag. -/
def wholeTag (handles : Handles) (handle suffix : String) : Option String :=
  if handle.isEmpty then some suffix
  else (handles.lookup handle).map (· ++ suffix)

/-- The number and the tag before a node. -/
def takeProperties (handles : Handles) :
    List Token → Option (Option Nat × Option String × List Token)
  | .anchor i :: .tag h s :: rest => do return (some i, some (← wholeTag handles h s), rest)
  | .tag h s :: .anchor i :: rest => do return (some i, some (← wholeTag handles h s), rest)
  | .anchor i :: rest => some (some i, none, rest)
  | .tag h s :: rest => do return (none, some (← wholeTag handles h s), rest)
  | rest => some (none, none, rest)

/-- A node with a number, if it has one. -/
def numbered (number : Option Nat) (n : Node) : Node :=
  match number with
  | none => n
  | some i => .anchored i n

/-- A scalar; a tag of one exclamation mark is none. -/
def taggedScalar (style : Style) (tag : Option String) (text : String) : Node :=
  .scalar style (tag.filter (· != "!")) text

/-- Whether the first token is among some, or there is none. -/
def nextIn (tokens : List Token) (l : List Token) : Bool :=
  match l with
  | [] => true
  | t :: _ => tokens.contains t

mutual

/-- Reads a node.  Block collections are read where `block` allows them, and items
without an indentation of their own where `bare` does. -/
def takeNode (handles : Handles) (block bare : Bool) (l : List Token) :
    Nat → Option (Node × List Token)
  | 0 => none
  | fuel + 1 =>
    match l with
    | .reference i :: rest => some (.reference i, rest)
    | l => do
      let (number, tag, l) ← takeProperties handles l
      let (node, rest) ←
        match l with
        | .scalar style text :: rest => some (taggedScalar style tag text, rest)
        | .flowSequence :: rest => takeFlowItems handles true [] rest fuel
        | .flowMapping :: rest => takeFlowPairs handles true [] rest fuel
        | .item :: _ =>
          if bare then takeItems handles true [] l fuel
          else if number.isSome || tag.isSome then some (.scalar .plain tag "", l)
          else none
        | .blockSequence :: rest =>
          if block then takeItems handles false [] rest fuel
          else if number.isSome || tag.isSome then some (.scalar .plain tag "", l)
          else none
        | .blockMapping :: rest =>
          if block then takePairs handles [] rest fuel
          else if number.isSome || tag.isSome then some (.scalar .plain tag "", l)
          else none
        | l =>
          if number.isSome || tag.isSome then some (.scalar .plain tag "", l) else none
      return (numbered number node, rest)

/-- Reads a node, unless one of some tokens stands in its place. -/
def takeNodeUnless (handles : Handles) (block : Bool) (stops l : List Token) :
    Nat → Option (Node × List Token)
  | 0 => none
  | fuel + 1 =>
    if nextIn stops l then some (.absent, l)
    else takeNode handles block block l fuel

/-- Reads the items of a block sequence; one that is `bare` ends without a token. -/
def takeItems (handles : Handles) (bare : Bool) (items : List Node) (l : List Token) :
    Nat → Option (Node × List Token)
  | 0 => none
  | fuel + 1 =>
    match l with
    | .item :: rest =>
      let stops : List Token :=
        if bare then [.item, .key, .value, .blockEnd] else [.item, .blockEnd]
      if nextIn stops rest then
        takeItems handles bare (.absent :: items) rest fuel
      else do
        let (n, rest) ← takeNode handles true false rest fuel
        takeItems handles bare (n :: items) rest fuel
    | .blockEnd :: rest => some (.sequence items.reverse, if bare then l else rest)
    | l => if bare then some (.sequence items.reverse, l) else none

/-- Reads the pairs of a block mapping. -/
def takePairs (handles : Handles) (pairs : List (Node × Node)) (l : List Token) :
    Nat → Option (Node × List Token)
  | 0 => none
  | fuel + 1 =>
    match l with
    | .key :: rest => do
      let (k, rest) ← takeNodeUnless handles true [.key, .value, .blockEnd] rest fuel
      match rest with
      | .value :: rest =>
        let (v, rest) ← takeNodeUnless handles true [.key, .value, .blockEnd] rest fuel
        takePairs handles ((k, v) :: pairs) rest fuel
      | rest => takePairs handles ((k, .absent) :: pairs) rest fuel
    | .blockEnd :: rest => some (.mapping pairs.reverse, rest)
    | _ => none

/-- Reads the items of a flow sequence, of which a pair is a mapping.  Where a key is
announced and missing, the token in its place is passed over. -/
def takeFlowItems (handles : Handles) (first : Bool) (items : List Node) (l : List Token) :
    Nat → Option (Node × List Token)
  | 0 => none
  | fuel + 1 => do
    let close := .flowSequenceEnd
    let l ← if first || nextIn [close] l then some l else
      match l with
      | .comma :: rest => some rest
      | _ => none
    match l with
    | .flowSequenceEnd :: rest => return (.sequence items.reverse, rest)
    | .key :: rest =>
      let (k, rest) ←
        if nextIn [.value, .comma, close] rest then some (.absent, rest.drop 1)
        else takeNode handles false false rest fuel
      match rest with
      | .value :: rest =>
        let (v, rest) ← takeNodeUnless handles false [.comma, close] rest fuel
        takeFlowItems handles false (.mapping [(k, v)] :: items) rest fuel
      | rest => takeFlowItems handles false (.mapping [(k, .absent)] :: items) rest fuel
    | l =>
      let (n, rest) ← takeNode handles false false l fuel
      takeFlowItems handles false (n :: items) rest fuel

/-- Reads the pairs of a flow mapping, of which one may be a key alone. -/
def takeFlowPairs (handles : Handles) (first : Bool) (pairs : List (Node × Node))
    (l : List Token) : Nat → Option (Node × List Token)
  | 0 => none
  | fuel + 1 => do
    let close := .flowMappingEnd
    let l ← if first || nextIn [close] l then some l else
      match l with
      | .comma :: rest => some rest
      | _ => none
    match l with
    | .flowMappingEnd :: rest => return (.mapping pairs.reverse, rest)
    | .key :: rest =>
      let (k, rest) ← takeNodeUnless handles false [.value, .comma, close] rest fuel
      match rest with
      | .value :: rest =>
        let (v, rest) ← takeNodeUnless handles false [.comma, close] rest fuel
        takeFlowPairs handles false ((k, v) :: pairs) rest fuel
      | rest => takeFlowPairs handles false ((k, .absent) :: pairs) rest fuel
    | l =>
      let (k, rest) ← takeNode handles false false l fuel
      takeFlowPairs handles false ((k, .absent) :: pairs) rest fuel

end

/-! ### Documents -/

/-- The handles of directives, of which each is given once. -/
def handlesOf (seen : Bool) (handles : Handles) : List Token → Option Handles
  | [] => some handles
  | .version major minor :: rest =>
    if seen || major != 1 || (minor != 1 && minor != 2) then none
    else handlesOf true handles rest
  | .tagHandle handle start :: rest =>
    if (handles.lookup handle).isSome then none
    else handlesOf seen ((handle, start) :: handles) rest
  | _ :: rest => handlesOf seen handles rest

/-- Whether a token is a directive. -/
def isDirective : Token → Bool
  | .version _ _ => true
  | .tagHandle _ _ => true
  | _ => false

/-- The node of the only document; a text without one has none. -/
def documentOf (l : List Token) : Option (Option Node) := do
  let directives := l.takeWhile isDirective
  let l := l.dropWhile isDirective
  let handles ← handlesOf false [] directives
  let handles := handles ++ standardHandles
  let fuel := 3 * l.length + 3
  let rest ←
    match l with
    | [] => if directives.isEmpty then return none else none
    | .documentStart :: rest => some rest
    | l => if directives.isEmpty then some l else none
  let empty := l.head? == some .documentStart
    && (nextIn [.documentStart, .documentEnd] rest || (rest.head?.map isDirective).getD false)
  let (n, rest) ← if empty then some (.absent, rest) else takeNode handles true false rest fuel
  if rest.all (· == .documentEnd) then return some n else none

/-- The node of the document that a text holds, if the text is well-formed and holds
no more than one. -/
def parse (s : String) : Option (Option Node) := do
  documentOf (← tokens s)

end Statechart.Yaml
