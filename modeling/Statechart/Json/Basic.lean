/-
JSON values.

Members of an object keep the order they were written in, which is the order of
states and transitions in a machine.  A key that is written again keeps its first
place and takes the later value (`putMember`).
-/

namespace Statechart

/-- A JSON number: a whole one that fits in 64 bits, signed or unsigned, or a double. -/
inductive Number
  | int (value : Int)
  | float (value : Float)

/-- The double nearest to a number. -/
def Number.toFloat : Number → Float
  | .int value => Float.ofInt value
  | .float value => value

/-- A JSON value. -/
inductive Json
  | null
  | bool (value : Bool)
  | number (value : Number)
  | string (value : String)
  | array (items : List Json)
  | object (members : List (String × Json))
deriving Inhabited

namespace Json

/-- What can be wrong with a JSON text or value. -/
inductive Fault
  /-- The text breaks the grammar, or a limit on depth or numbers. -/
  | malformed
  /-- The text ends too early. -/
  | truncated
  /-- The value is not of the shape that is wanted. -/
  | mismatched
deriving DecidableEq

/-- A whole number as a value. -/
def ofNat (n : Nat) : Json := .number (.int n)

/-- Writes a member: at the place of its key if that is there, else at the end. -/
def putMember (members : List (String × Json)) (key : String) (value : Json) :
    List (String × Json) :=
  match members with
  | [] => [(key, value)]
  | (k, v) :: rest =>
    if k = key then (k, value) :: rest else (k, v) :: putMember rest key value

/-- The value of a member. -/
def member? (members : List (String × Json)) (key : String) : Option Json :=
  (members.find? (fun m => m.1 = key)).map Prod.snd

/-- The value at a key; nothing for a value that is no object. -/
def get? : Json → String → Option Json
  | .object members, key => member? members key
  | _, _ => none

/-- Whether the value is null. -/
def isNull : Json → Bool
  | .null => true
  | _ => false

/-- Writes every member of `patch` into `members`, in order. -/
def mergeMembers (members patch : List (String × Json)) : List (String × Json) :=
  patch.foldl (fun acc m => putMember acc m.1 m.2) members

/-- Writing a member keeps the keys in place, with a new key at the end. -/
theorem keys_putMember {members : List (String × Json)} {key : String} {value : Json} :
    (putMember members key value).map Prod.fst =
      if key ∈ members.map Prod.fst then members.map Prod.fst
      else members.map Prod.fst ++ [key] := by
  induction members with
  | nil => simp [putMember]
  | cons head rest ih =>
    obtain ⟨k, v⟩ := head
    unfold putMember
    by_cases hk : k = key
    · simp [hk]
    · have hk' : ¬ key = k := fun h => hk h.symm
      simp only [hk, if_false, List.map_cons, ih, List.mem_cons, hk', false_or]
      split <;> simp

end Json

end Statechart
