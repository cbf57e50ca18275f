/-
The program as a whole, up to the point where it talks.

It reads the arguments, the settings and the machine, and carries out the command.  How
files are read is an argument.
-/
import Statechart.CommandLine.Help
import Statechart.CommandLine.Repl
import Statechart.Settings.File

namespace Statechart.CommandLine

/-- What comes of starting the program. -/
inductive Launch
  /-- It is over: what it shows, what it complains about, and its exit code. -/
  | finished (output complaint : String) (code : Nat)
  /-- It talks, after it has shown something. -/
  | talking (output : String) (repl : Repl)

namespace Launch

/-- It fails without showing anything. -/
def failed (complaint : String) (code : Nat) : Launch :=
  .finished "" (complaint ++ "\n") code

/-- It shows a text, or fails. -/
def ofResult (colored : Bool) : Except Failure String → Launch
  | .ok text => .finished (text ++ "\n") "" 0
  | .error e => failed (paint colored [.red] "Error" ++ ": " ++ e.message) 1

/-- The line that a conversation starts with. -/
def heading (colored : Bool) : String :=
  paint colored [.bold, .cyan] "stateviz" ++ "\n"

/-- Carries out a command on a machine. -/
def ofCommand (d : Definition) (settings : Settings) (appearance : Appearance) (now : Nat) :
    Command → Launch
  | .validate => .ofResult colored (.ok (summary colored d))
  | .graph => .ofResult colored (.ok (graphText d))
  | .ids => .ofResult colored (initialIds d)
  | .run events json =>
    .ofResult colored (runEvents colored d settings.transientLimit events json)
  | .repl =>
    match Repl.start d settings appearance now with
    | .ok r =>
      if settings.fitService then .talking (heading colored ++ r.welcome) r
      else .finished (heading colored) "Error: a capacity is too large\n" Repl.brokenCode
    | .error e => .finished (heading colored) ("Error: core error: " ++ e.message ++ "\n") 1
where
  /-- Whether things stand out in colours. -/
  colored : Bool := appearance.colored

end Launch

/-- The text of an error in the settings. -/
def settingsComplaint : SettingsError → String
  | .unreadable => "Config error: failed to read config file"
  | .malformed => "Config error: failed to parse config file"
  | .zero c => "Config error: " ++ c.zeroMessage

/-- The file of the settings: that of the option, or else of the variable, which must not
be empty then. -/
def configFile (options : Options) (var : Variables) : Except ArgumentFault (Option String) :=
  match options.config, var configVariable with
  | some path, _ => .ok (some path)
  | none, some "" => .error (.missingValue ValueOption.config.name)
  | none, path => .ok path

variable {m : Type → Type} [Monad m]

/-- What the program finds around it. -/
structure Surroundings where
  /-- The variables of the environment. -/
  var : Variables
  /-- Whether lines come from a terminal. -/
  fromTerminal : Bool
  /-- Whether output goes to a terminal. -/
  onTerminal : Bool

namespace Surroundings

/-- Surroundings without a terminal. -/
def piped (var : Variables) : Surroundings := ⟨var, false, false⟩

/-- How the program appears with some settings. -/
def appearance (s : Surroundings) (settings : Settings) : Appearance :=
  .ofEnvironment s.var settings s.fromTerminal s.onTerminal

end Surroundings

/-- Carries out a command with its options. -/
def launchCommand (readFile : String → m (Except String String)) (around : Surroundings)
    (options : Options) (command : Command) (now : Nat) : m Launch := do
  match configFile options around.var with
  | .error fault => return .failed fault.message 2
  | .ok file =>
    let content ← file.mapM fun path => do return (← readFile path).toOption
    match Settings.load content around.var with
    | .error e => return .failed (settingsComplaint e) 1
    | .ok settings =>
      match options.machine.or settings.machine with
      | none => return .failed "Error: no machine definition given" 2
      | some path =>
        match ← readFile path with
        | .error reason => return .failed ("Invalid machine " ++ path ++ ": " ++ reason) 1
        | .ok text =>
          match Definition.ofText text with
          | .error e =>
            return .failed ("Invalid machine " ++ path ++ ": " ++ StateConfig.refusal text e) 1
          | .ok d => return .ofCommand d settings (around.appearance settings) now command

/-- Starts the program with its arguments and surroundings, at a moment. -/
def launch (readFile : String → m (Except String String)) (around : Surroundings)
    (args : List String) (now : Nat) : m Launch := do
  match parse args with
  | .error fault => return .failed fault.message 2
  | .ok .version => return .finished versionText "" 0
  | .ok (.help topic) => return .finished (topic.text (around.var configVariable)) "" 0
  | .ok (.command options command) => launchCommand readFile around options command now

/-- All that the program shows for some input, and its exit code, when no time passes,
files do not change, and there is no terminal. -/
def transcript (readFile : String → Except String String) (var : Variables)
    (args : List String) (input : String) : String × Nat :=
  match Id.run (launch (fun path => pure (readFile path)) (.piped var) args 0) with
  | .finished output _ code => (output, code)
  | .talking output repl =>
    let (text, code) := repl.converse readFile 0 (Text.lines input)
    (output ++ text, code)

end Statechart.CommandLine
