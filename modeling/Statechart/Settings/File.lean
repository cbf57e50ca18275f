/-
Settings in a file.
-/
import Statechart.Settings.Basic
import Statechart.Yaml.Meaning
import Statechart.Yaml.Node
import Statechart.Yaml.Printer

namespace Statechart.Settings

/-! ### Reading -/

/-- The tag of a standard type. -/
def standardTag (name : String) : String := "tag:yaml.org,2002:" ++ name

/-- The text of a scalar that may stand for a value of the type with a name. -/
def scalarText? (type : String) : Yaml.Node → Option String
  | .scalar .plain _ text => some text
  | .scalar .literal (some tag) text => if tag = standardTag type then some text else none
  | _ => none

/-- The number of a node. -/
def readNumber (n : Yaml.Node) : Option Nat := do
  Yaml.whole? Text.wordLimit (← scalarText? "int" n).toList

/-- The truth value of a node. -/
def readTruth (n : Yaml.Node) : Option Bool := do
  Yaml.truth? (← scalarText? "bool" n)

/-- The text of a node that may be left out. -/
def readText : Yaml.Node → Option (Option String)
  | .scalar .plain none text => some (if Yaml.isNull text then none else some text)
  | .scalar .plain (some tag) text =>
    if tag = standardTag "null" then
      if Yaml.isNull text && !text.isEmpty then some none else none
    else
      some (some text)
  | .scalar _ _ text => some (some text)
  | _ => none

/-- A field of a section: how its node changes the settings. -/
structure Field where
  name : String
  read : Yaml.Node → Settings → Option Settings

/-- The settings with the fields of a mapping.  Each is given once; keys that name no
field are passed over. -/
def readFields (root : Yaml.Node) (fields : List Field) (seen : List String) (s : Settings) :
    List (Yaml.Node × Yaml.Node) → Option Settings
  | [] => some s
  | (key, value) :: rest =>
    match root.resolve key with
    | .scalar _ _ name =>
      match fields.find? (·.name == name) with
      | none => readFields root fields seen s rest
      | some field =>
        if seen.contains name then
          none
        else do
          let s ← field.read (root.resolve value) s
          readFields root fields (name :: seen) s rest
    | _ => none

/-- The settings with a section, which may be empty. -/
def readSection (root : Yaml.Node) (fields : List Field) (n : Yaml.Node) (s : Settings) :
    Option Settings :=
  match n with
  | .mapping pairs => readFields root fields [] s pairs
  | n => if n.isAbsent then some s else none

/-- The fields of the first section. -/
def interpreterFields : List Field := [
  ⟨"transient_limit", fun n s => do return { s with transientLimit := ← readNumber n }⟩]

/-- The fields of the second section. -/
def runtimeFields : List Field := [
  ⟨"queue_capacity", fun n s => do return { s with queueCapacity := ← readNumber n }⟩,
  ⟨"broadcast_capacity", fun n s => do return { s with broadcastCapacity := ← readNumber n }⟩]

/-- The fields of the third section. -/
def inspectorFields : List Field := [
  ⟨"machine", fun n s => do return { s with machine := ← readText n }⟩,
  ⟨"history_file", fun n s => do return { s with historyFile := ← readText n }⟩,
  ⟨"color", fun n s => do return { s with color := ← readTruth n }⟩]

/-- The sections of a file. -/
def sections (root : Yaml.Node) : List Field := [
  ⟨"interpreter", readSection root interpreterFields⟩,
  ⟨"runtime", readSection root runtimeFields⟩,
  ⟨"inspector", readSection root inspectorFields⟩]

/-- The settings that a text holds. -/
def ofText (text : String) : Except SettingsError Settings :=
  let read : Option Settings := do
    match ← Yaml.parse text with
    | none => return standard
    | some root => readSection root (sections root) (root.resolve root) standard
  match read with
  | some s => .ok s
  | none => .error .malformed

/-- The settings of a file, of which `none` stands for one that cannot be read. -/
def ofFile (content : Option String) : Except SettingsError Settings :=
  match content with
  | none => .error .unreadable
  | some text => ofText text

/-- The settings of a file, if there is to be one, as the environment changes them. -/
def load (file : Option (Option String)) (var : Variables) : Except SettingsError Settings := do
  let s ← match file with
    | none => pure standard
    | some content => ofFile content
  let s := s.override var
  s.check
  return s

/-! ### Writing -/

/-- A text that may be left out, as a value. -/
def writeOptional : Option String → String
  | none => "null"
  | some text => Yaml.writeText 4 text

/-- A field and its value as lines.  A block may end its last line itself. -/
def field (name value : String) : String :=
  let ended := (value.toList.getLast?.map Yaml.isBreak).getD false
  "  " ++ name ++ ": " ++ value ++ (if ended then "" else "\n")

/-- The settings as the text of a file. -/
def toText (s : Settings) : String :=
  "interpreter:\n"
    ++ field "transient_limit" (Nat.repr s.transientLimit)
    ++ "runtime:\n"
    ++ field "queue_capacity" (Nat.repr s.queueCapacity)
    ++ field "broadcast_capacity" (Nat.repr s.broadcastCapacity)
    ++ "inspector:\n"
    ++ field "machine" (writeOptional s.machine)
    ++ field "history_file" (writeOptional s.historyFile)
    ++ field "color" (if s.color then "true" else "false")

end Statechart.Settings
