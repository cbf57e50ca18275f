/-
Texts of help.
-/
import Statechart.CommandLine.Arguments
import Statechart.Text.Wrap

namespace Statechart.CommandLine

/-- The name and the number of the program. -/
def versionText : String := "stateviz 0.1.0\n"

/-- The variable that names the file of the settings. -/
def configVariable : String := "STATEVIZ_CONFIG"

/-- The line about help in the list of options. -/
def helpOption : String := "  -h, --help  Print help\n"

/-- The column in which the texts about options begin. -/
def optionColumn : Nat := 27

/-- The width of help. -/
def helpWidth : Nat := 100

/-- A text about an option, in its column. -/
def optionText (s : String) : String :=
  String.ofList (Text.hang optionColumn (Text.wrap (helpWidth - optionColumn) s.toList))

/-- The help about the program.  It shows the value of the variable for the settings. -/
def programHelp (config : Option String) : String :=
  "Inspect and drive hierarchical state machines\n\n"
    ++ "Usage: stateviz [OPTIONS] [COMMAND]\n\n"
    ++ "Commands:\n"
    ++ "  repl      Start interactive REPL\n"
    ++ "  validate  Validate the machine definition\n"
    ++ "  graph     Print the extracted node and edge lists as JSON\n"
    ++ "  run       Send events in order and print each resulting configuration\n"
    ++ "  ids       Print the active ids of the initial state\n"
    ++ "  help      Print this message or the help of the given subcommand(s)\n\n"
    ++ "Options:\n"
    ++ "  -m, --machine <MACHINE>  Machine definition JSON file\n"
    ++ "  -c, --config <CONFIG>    "
    ++ optionText ("YAML config file [env: " ++ configVariable ++ "=" ++ config.getD "" ++ "]")
    ++ "\n"
    ++ "  -h, --help               Print help\n"
    ++ "  -V, --version            Print version\n"

/-- The help about a command without arguments. -/
def bareHelp (about name : String) : String :=
  about ++ "\n\nUsage: stateviz " ++ name ++ "\n\nOptions:\n" ++ helpOption

/-- The help about a topic, as it shows. -/
def Topic.text (config : Option String) : Topic → String
  | .program => String.ofList (Text.shownText (programHelp config).toList)
  | .repl => bareHelp "Start interactive REPL" "repl"
  | .validate => bareHelp "Validate the machine definition" "validate"
  | .graph => bareHelp "Print the extracted node and edge lists as JSON" "graph"
  | .ids => bareHelp "Print the active ids of the initial state" "ids"
  | .run =>
    "Send events in order and print each resulting configuration\n\n"
      ++ "Usage: stateviz run [OPTIONS] [EVENTS]...\n\n"
      ++ "Arguments:\n"
      ++ "  [EVENTS]...  Events, as NAME or NAME=PAYLOAD_JSON\n\n"
      ++ "Options:\n"
      ++ "      --json  Print full states as JSON lines\n"
      ++ helpOption
  | .help =>
    "Print this message or the help of the given subcommand(s)\n\n"
      ++ "Usage: stateviz help [COMMAND]...\n\n"
      ++ "Arguments:\n"
      ++ "  [COMMAND]...  Print help for the subcommand(s)\n"

end Statechart.CommandLine
