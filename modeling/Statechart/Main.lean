/-
The program.
-/
import Statechart.CommandLine.Launch

namespace Statechart.CommandLine

/-- The variables of the environment that the program looks at. -/
def watchedVariables : List String :=
  configVariable :: Settings.variableNames ++ Appearance.variableNames

/-- Why a file cannot be read: what the system says, with the number that it gives. -/
def fileComplaint : IO.Error → String
  | .noFileOrDirectory _ code _ => s!"No such file or directory (os error {code})"
  | .permissionDenied _ code details => s!"{details} (os error {code})"
  | .inappropriateType _ code details => s!"{details} (os error {code})"
  | .resourceExhausted _ code details => s!"{details} (os error {code})"
  | .invalidArgument _ code details => s!"{details} (os error {code})"
  | e => toString e

/-- Reads a file, which must hold text. -/
def readTextFile (path : String) : IO (Except String String) := do
  try
    match String.fromUTF8? (← IO.FS.readBinFile path) with
    | some text => return .ok text
    | none => return .error "stream did not contain valid UTF-8"
  catch e =>
    return .error (fileComplaint e)

/-- Talks until the input ends or a line ends it, and gives the exit code. -/
partial def talk (input output : IO.FS.Stream) (r : Repl) : IO Nat := do
  output.putStr r.prompt
  output.flush
  let typed ← input.getLine
  if typed.isEmpty then
    output.putStr Repl.farewell
    return 0
  match TypedLine.ofText? typed with
  | none => return Repl.brokenCode
  | some line =>
    let content ← match Repl.fileOf? line with
      | none => pure (.ok "")
      | some path => readTextFile path
    match r.answer line content (← IO.monoNanosNow) with
    | (text, some next) =>
      output.putStr text
      talk input output next
    | (text, none) =>
      output.putStr text
      return 0

/-- Runs the program, and gives its exit code. -/
def runProgram (args : List String) : IO UInt32 := do
  let known ← watchedVariables.filterMapM fun name => do
    return (← IO.getEnv name).map (name, ·)
  let var : Variables := fun name => known.lookup name
  let output ← IO.getStdout
  let input ← IO.getStdin
  let around : Surroundings := ⟨var, ← input.isTty, ← output.isTty⟩
  match ← launch readTextFile around args (← IO.monoNanosNow) with
  | .finished text complaint code =>
    output.putStr text
    (← IO.getStderr).putStr complaint
    return code.toUInt32
  | .talking text r =>
    output.putStr text
    return (← talk input output r).toUInt32

end Statechart.CommandLine

/-- Runs the program. -/
def main (args : List String) : IO UInt32 :=
  Statechart.CommandLine.runProgram args
