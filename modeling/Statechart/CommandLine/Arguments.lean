/-
Arguments of the program.

Options come before the command.  The value of an option stands in the same argument or
in the next one; after two dashes alone nothing is an option.  A value that stands by itself
is refused only when something follows it that is no request for help with a command.
-/
import Statechart.Text.Split

namespace Statechart.CommandLine

/-- What the program is to do with a machine. -/
inductive Command
  /-- To talk about it line by line. -/
  | repl
  /-- To tell that its definition is sound, and what is in it. -/
  | validate
  /-- To show the graph of it. -/
  | graph
  /-- To deliver events and show each state. -/
  | run (events : List String) (json : Bool)
  /-- To show what is active at the start. -/
  | ids

/-- What help can be asked about. -/
inductive Topic
  | program
  | repl
  | validate
  | graph
  | run
  | ids
  | help
  deriving DecidableEq

namespace Topic

/-- The topics that are commands, by name. -/
def commands : List (String × Topic) :=
  [("repl", .repl), ("validate", .validate), ("graph", .graph), ("run", .run), ("ids", .ids),
    ("help", .help)]

end Topic

/-- The options before the command. -/
structure Options where
  /-- The file of the machine. -/
  machine : Option String
  /-- The file of the settings. -/
  config : Option String

/-- What the arguments ask for. -/
inductive Invocation
  | command (options : Options) (command : Command)
  | help (topic : Topic)
  | version

/-- What a command is asked: to be carried out, or to be explained. -/
inductive Request
  | command (command : Command)
  | help (topic : Topic)

/-- Why arguments are refused. -/
inductive ArgumentFault
  | unexpected (argument : String)
  | unknownCommand (name : String)
  | missingValue (option : String)
  | repeated (option : String)

/-- The text of a fault. -/
def ArgumentFault.message : ArgumentFault → String
  | .unexpected argument => s!"error: unexpected argument '{argument}' found"
  | .unknownCommand name => s!"error: unrecognized subcommand '{name}'"
  | .missingValue option => s!"error: a value is required for '{option}' but none was supplied"
  | .repeated option => s!"error: the argument '{option}' cannot be used multiple times"

/-- An option that takes a value. -/
inductive ValueOption
  | machine
  | config

namespace ValueOption

/-- The option as help shows it. -/
def name : ValueOption → String
  | .machine => "--machine <MACHINE>"
  | .config => "--config <CONFIG>"

/-- The option with a long name. -/
def ofLong? : String → Option ValueOption
  | "machine" => some .machine
  | "config" => some .config
  | _ => none

/-- The option with a letter. -/
def ofLetter? : Char → Option ValueOption
  | 'm' => some .machine
  | 'c' => some .config
  | _ => none

end ValueOption

namespace Options

/-- No options. -/
def empty : Options := ⟨none, none⟩

/-- The value of an option. -/
def get? (o : Options) : ValueOption → Option String
  | .machine => o.machine
  | .config => o.config

/-- With an option set, which must not be set yet, to a value that is not empty. -/
def set (o : Options) (option : ValueOption) (value : String) : Except ArgumentFault Options :=
  if (o.get? option).isSome then .error (.repeated option.name)
  else if value.isEmpty then .error (.missingValue option.name)
  else
    match option with
    | .machine => .ok { o with machine := some value }
    | .config => .ok { o with config := some value }

end Options

/-! ### Reading -/

/-- How an argument reads by itself. -/
inductive Word
  /-- Two dashes alone. -/
  | dashes
  /-- A name after two dashes, and what follows an equals sign. -/
  | long (name : String) (value : Option String)
  /-- A letter after one dash, and what follows it. -/
  | short (letter : Char) (rest : List Char)
  | plain (text : String)

/-- How an argument reads by itself. -/
def Word.ofText (s : String) : Word :=
  match s.toList with
  | ['-', '-'] => .dashes
  | '-' :: '-' :: rest =>
    match Text.cut? (· == '=') rest with
    | some (name, value) => .long (String.ofList name) (some (String.ofList value))
    | none => .long (String.ofList rest) none
  | '-' :: letter :: rest => .short letter rest
  | _ => .plain s

/-- What follows the letter of an option in the same argument, as its value. -/
def attachedValue? : List Char → Option String
  | [] => none
  | '=' :: value => some (String.ofList value)
  | value => some (String.ofList value)

/-- Reads the arguments of a command that takes none. -/
def parseBare (command : Command) (topic : Topic) : List String → Except ArgumentFault Request
  | [] => .ok (.command command)
  | arg :: rest =>
    match Word.ofText arg, rest with
    | .dashes, [] => .ok (.command command)
    | .dashes, next :: _ => .error (.unexpected next)
    | .long "help" none, _ => .ok (.help topic)
    | .short 'h' _, _ => .ok (.help topic)
    | _, _ => .error (.unexpected arg)

/-- Reads the arguments of the command that delivers events, after some events in
reverse. -/
def parseRun (events : List String) (json : Bool) : List String → Except ArgumentFault Request
  | [] => .ok (.command (.run events.reverse json))
  | arg :: rest =>
    match Word.ofText arg with
    | .dashes => .ok (.command (.run (events.reverse ++ rest) json))
    | .long "json" none =>
      if json then .error (.repeated "--json") else parseRun events true rest
    | .long "help" none => .ok (.help .run)
    | .short 'h' _ => .ok (.help .run)
    | .plain event => parseRun (event :: events) json rest
    | _ => .error (.unexpected arg)

/-- The topic of a request for help. -/
def parseHelp : List String → Except ArgumentFault Request
  | [] => .ok (.help .program)
  | name :: rest =>
    match Topic.commands.lookup name, rest with
    | some topic, [] => .ok (.help topic)
    | some _, next :: _ => .error (.unknownCommand next)
    | none, _ => .error (.unknownCommand name)

/-- Reads the arguments after the name of a command. -/
def parseCommand (name : String) (rest : List String) : Except ArgumentFault Request :=
  match Topic.commands.lookup name with
  | some .repl => parseBare .repl .repl rest
  | some .validate => parseBare .validate .validate rest
  | some .graph => parseBare .graph .graph rest
  | some .ids => parseBare .ids .ids rest
  | some .run => parseRun [] false rest
  | some .help => parseHelp rest
  | some .program | none => .error (.unknownCommand name)

/-- Reads the arguments after some options, the last of which may be at fault.  Without a
command, the program talks. -/
def parseAfter (options : Except ArgumentFault Options) :
    List String → Except ArgumentFault Invocation
  | [] => do return .command (← options) .repl
  | arg :: rest =>
    let withValue (option : ValueOption) (attached : Option String) :
        Except ArgumentFault Invocation :=
      match attached, rest with
      | some value, rest => do
        let options ← options
        let options ← options.set option value
        parseAfter (.ok options) rest
      | none, [] => .error (.missingValue option.name)
      | none, next :: rest => do
        let options ← options
        match Word.ofText next with
        | .plain value => parseAfter (options.set option value) rest
        | _ => .error (.missingValue option.name)
    match Word.ofText arg with
    | .dashes =>
      match rest with
      | [] => do return .command (← options) .repl
      | next :: _ => .error (.unexpected next)
    | .long name value =>
      match ValueOption.ofLong? name, name, value with
      | some option, _, value => withValue option value
      | none, "help", none => do let _ ← options; return .help .program
      | none, "version", none => do let _ ← options; return .version
      | none, _, _ => .error (.unexpected arg)
    | .short letter value =>
      match ValueOption.ofLetter? letter, letter with
      | some option, _ => withValue option (attachedValue? value)
      | none, 'h' => do let _ ← options; return .help .program
      | none, 'V' => do let _ ← options; return .version
      | none, _ => .error (.unexpected arg)
    | .plain name => do
      match ← parseCommand name rest with
      | .help topic => return .help topic
      | .command command => return .command (← options) command

/-- What the arguments ask for. -/
def parse (args : List String) : Except ArgumentFault Invocation :=
  parseAfter (.ok .empty) args

end Statechart.CommandLine
