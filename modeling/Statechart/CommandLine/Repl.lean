/-
Talking about a machine line by line.

A line is a command with what follows it.  The machine runs in a service; markers over
its graph show what is active and which events are answered, and are brought up to date
before each command.
-/
import Statechart.CommandLine.Report
import Statechart.CommandLine.TypedLine
import Statechart.Definition.Complaint
import Statechart.Service.Basic
import Statechart.Settings.Basic
import Statechart.Text.Lowercase
import Statechart.View.Overlay

namespace Statechart.CommandLine

/-- A conversation about a machine. -/
structure Repl where
  service : Service
  overlay : View.Overlay
  /-- The subscription to the snapshots of timers. -/
  alarms : Receiver
  appearance : Appearance

/-- What a line asks for. -/
inductive Order
  | help
  | quit
  | send (text : String)
  | preview (text : String)
  | state
  | ids
  | events
  | context (text : String)
  | history
  | graph
  | load (path : String)
  | unknown (name : String)

/-- The order that a command gives with the text after it. -/
def Order.ofCommand (name rest : String) : Order :=
  match name with
  | "help" | "?" => .help
  | "quit" | "exit" | "q" => .quit
  | "send" | "s" => .send rest
  | "preview" | "p" => .preview rest
  | "state" => .state
  | "ids" => .ids
  | "events" | "e" => .events
  | "ctx" => .context rest
  | "history" | "h" => .history
  | "graph" | "g" => .graph
  | "load" => .load rest
  | name => .unknown name

/-- The order of a line, in which the case of the command does not matter; nothing for a
blank line. -/
def Order.ofLine? (line : String) : Option Order :=
  let line := Text.trim line
  if line.isEmpty then
    none
  else
    match Text.cut? Text.isBlank line.toList with
    | none => some (.ofCommand (Text.lower line) "")
    | some (name, rest) =>
      some (.ofCommand (Text.lower (String.ofList name)) (Text.trim (String.ofList rest)))

/-- Why an order fails. -/
inductive ReplError
  /-- The service refuses it. -/
  | service (e : ServiceError)
  /-- The definition of a machine in a text is refused. -/
  | definition (text : String) (e : Error)
  /-- A payload or a patch is no value. -/
  | payload (source : Json.NoValue)
  /-- A file cannot be read. -/
  | file (reason : String)

/-- The text of an error. -/
def ReplError.message : ReplError → String
  | .service (.core e) => "core error: " ++ e.message
  | .service .closed => ServiceError.closedMessage
  | .definition text e => StateConfig.refusal text e
  | .payload source => source.message
  | .file reason => reason

/-- The commands and what they do. -/
def helpText : String :=
  "\nAvailable commands:\n"
    ++ "  help                          Show this help\n\n"
    ++ "  send <event> [payload]        Send an event (alias: s)\n"
    ++ "  preview <event> [payload]     Show what an event would do, without sending it\n"
    ++ "  state                         Show the full current state\n"
    ++ "  ids                           Show the active state ids\n"
    ++ "  events                        Show the events enabled right now\n"
    ++ "  ctx [patch]                   Show the context, or merge a JSON object into it\n"
    ++ "  history                       Show recorded history\n"
    ++ "  graph                         Show the state tree with markers\n"
    ++ "  load <file>                   Replace the machine with a definition file\n\n"
    ++ "  quit, exit                    Exit the REPL\n"

namespace Repl

/-- The definition of the machine at work. -/
def definition (r : Repl) : Definition :=
  r.service.session.machine.definition

/-- A text in some inks, if things are coloured. -/
def paint (r : Repl) (inks : List Ink) (text : String) : String :=
  CommandLine.paint r.appearance.colored inks text

/-- A state in one line. -/
def stepLine (r : Repl) (s : State) : String :=
  CommandLine.stepLine r.appearance.colored s

/-- What stands before each line. -/
def prompt (r : Repl) : String :=
  if r.appearance.prompted then r.paint [.cyan] (r.definition.name ++ ">") ++ " " else ""

/-- Brings the markers up to date with a snapshot.  Tells how the active ones changed. -/
def sync (r : Repl) (s : Snapshot) : Repl × View.MarkerDelta :=
  let (overlay, delta) := r.overlay.syncActive s.activeIds
  let (overlay, _) := overlay.syncEnabled s.nextEvents
  ({ r with overlay }, delta)

/-- Brings the markers up to date. -/
def refresh (r : Repl) : Repl :=
  (r.sync r.service.current).1

/-- Starts a conversation about a machine. -/
def start (d : Definition) (settings : Settings) (appearance : Appearance) (now : Nat) :
    Except Error Repl := do
  let m := { Machine.ofDefinition d with transientLimit := settings.transientLimit }
  let service ← Service.start m settings.broadcastCapacity now
  let (broadcaster, alarms) := service.broadcaster.subscribe { SnapshotFilter.everything with
    causes := [.timer] }
  let r : Repl :=
    ⟨{ service with broadcaster }, View.Overlay.ofGraph (View.Graph.ofTree d.tree), alarms,
      appearance⟩
  return r.refresh

/-- What is shown when a conversation starts. -/
def welcome (r : Repl) : String :=
  "Machine " ++ r.paint [.cyan] r.definition.name ++ " loaded (" ++ Nat.repr r.definition.tree.size
    ++ " states). Type 'help' for available commands.\n\n"

/-! ### What orders show -/

/-- The changes of the active markers in one line, what ceased to be active first. -/
def deltaLine (r : Repl) (delta : View.MarkerDelta) : String :=
  let shown (ink : Ink) (sign : String) (changes : List (String × View.Marker)) :
      List String :=
    (changes.filter (·.2 == .active)).map fun c => r.paint [ink] (sign ++ c.1)
  "  " ++ " ".intercalate (shown .red "-" delta.removed ++ shown .green "+" delta.added)

/-- An edge that a previewed event would take. -/
def edgeLine (r : Repl) (e : View.Edge) : String :=
  "  " ++ e.source ++ " -> " ++ r.paint [.yellow] e.target

/-- What an event would do, with the edges it would take. -/
def previewText (r : Repl) (p : Preview) (edges : List View.Edge) : String :=
  "\n".intercalate
    ([r.stepLine p.state, "  Would be active: " ++ ", ".intercalate p.activeIds]
      ++ edges.map r.edgeLine)

/-- The word for a kind of history. -/
def historyWord : HistoryKind → String
  | .shallow => "Shallow"
  | .deep => "Deep"

/-- The records of history, each on a line. -/
def historyText (r : Repl) (h : HistoryStore) : String :=
  let t := r.definition.tree
  String.join (h.entries.map fun e =>
    "  " ++ r.paint [.cyan] (t.node e.1).id ++ " (" ++ historyWord e.2.kind ++ "): "
      ++ ", ".intercalate (e.2.nodes.map fun i => (t.node i).id) ++ "\n")

/-- A text on one line. -/
def oneLine (s : String) : String :=
  s.map fun c => if c == '\n' then ' ' else c

/-- The key of a box, which stands out where it is active. -/
def boxKey (r : Repl) (b : View.Box) : String :=
  if r.overlay.has b.id .active then r.paint [.bold, .green] b.key else b.key

/-- A transition in the graph: dim where it is not answered. -/
def transitionLine (r : Repl) (indent : String) (e : View.Edge) : String :=
  let ink := if r.overlay.has e.id .disabled then .dim else .cyan
  r.paint [ink] (indent ++ "  " ++ oneLine e.label ++ " -> " ++ e.target)

/-- The boxes of the graph and the transitions from each, indented by depth. -/
def graphTree (r : Repl) : String :=
  let g := r.overlay.graph
  let boxes := g.boxes.filter fun b => b.role != .initialMarker
  String.join (boxes.flatMap fun b =>
    let indent := String.ofList (List.replicate (2 * (b.depth + 1)) ' ')
    (indent ++ r.boxKey b ++ "\n") :: (g.edgesFrom b.id).map fun e =>
      r.transitionLine indent e ++ "\n")

/-! ### Carrying out orders -/

/-- The edges that a preview marks, in the order of their ids. -/
def previewEdges (r : Repl) (event : Event) (p : Preview) : List View.Edge :=
  let (overlay, _) := r.overlay.syncPreview event.name p.activeIds
  (overlay.marked .highlight).filterMap overlay.graph.edge?

/-- The snapshot in a reply that has one. -/
def snapshotOf : Except ServiceError Reply → Except ReplError Snapshot
  | .ok (.snapshot s) => .ok s
  | .ok _ => .error (.service .closed)
  | .error e => .error (.service e)

/-- Delivers an event. -/
def send (r : Repl) (text : String) (now : Nat) : Repl × Except ReplError String :=
  match Event.ofTyped text with
  | .error source => (r, .error (.payload source))
  | .ok event =>
    let (service, reply) := r.service.handle (.send event) now
    let r := { r with service }
    match snapshotOf reply with
    | .error e => (r, .error e)
    | .ok s =>
      let (r, delta) := r.sync s
      let changes := if delta.isEmpty then "" else "\n" ++ r.deltaLine delta
      (r, .ok (r.stepLine s.state ++ changes))

/-- Shows what an event would do. -/
def preview (r : Repl) (text : String) (now : Nat) : Except ReplError String := do
  let event ← (Event.ofTyped text).mapError ReplError.payload
  match (r.service.handle (.preview event) now).2 with
  | .ok (.preview p) => return r.previewText p (r.previewEdges event p)
  | .ok _ => throw (.service .closed)
  | .error e => throw (.service e)

/-- Writes the members of a patch into the context. -/
def patch (r : Repl) (text : String) (now : Nat) : Repl × Except ReplError String :=
  match Json.valueOf text with
  | .error source => (r, .error (.payload source))
  | .ok patch =>
    let (service, reply) := r.service.handle (.updateContext patch) now
    let r := { r with service }
    match snapshotOf reply with
    | .error e => (r, .error e)
    | .ok s => ((r.sync s).1, .ok s.state.context.pretty)

/-- Puts the machine of a file in place, of which the content or why there is none is
given. -/
def load (r : Repl) (content : Except String String) (now : Nat) :
    Repl × Except ReplError String :=
  match content with
  | .error reason => (r, .error (.file reason))
  | .ok text =>
    match Definition.ofText text with
    | .error e => (r, .error (.definition text e))
    | .ok d =>
      let (service, reply) := r.service.handle (.load d) now
      let r := { r with service }
      match snapshotOf reply with
      | .error e => (r, .error e)
      | .ok s =>
        let overlay := r.overlay.setGraph (View.Graph.ofTree d.tree)
        let (r, _) := { r with overlay }.sync s
        (r, .ok (r.paint [.green] "Loaded" ++ " machine " ++ r.paint [.cyan] s.machine
          ++ " (checksum: " ++ s.checksum ++ ")\n" ++ r.stepLine s.state))

/-- The events that are answered now, and how many edges are not. -/
def eventsText (r : Repl) : String :=
  let events := r.service.current.nextEvents
  if events.isEmpty then
    r.paint [.yellow] "No enabled events"
  else
    r.paint [.cyan] (", ".intercalate events) ++ "\n  (" ++ Nat.repr (r.overlay.marked .disabled).length
      ++ " transition edges disabled)"

/-- The recorded history, if there is any. -/
def recordsText (r : Repl) : String :=
  let history := r.service.current.state.history
  if history.isEmpty then r.paint [.yellow] "No history recorded" else r.historyText history

/-- Carries out an order other than to quit.  What the file holds that it names is given. -/
def perform (r : Repl) (order : Order) (content : Except String String) (now : Nat) :
    Repl × Except ReplError String :=
  match order with
  | .help => (r, .ok helpText)
  | .quit => (r, .ok "")
  | .send "" => (r, .ok "Usage: send <event> [payload_json]")
  | .send text => r.send text now
  | .preview "" => (r, .ok "Usage: preview <event> [payload_json]")
  | .preview text => (r, r.preview text now)
  | .state => (r, .ok r.service.current.state.toJson.pretty)
  | .ids => (r, .ok ("\n".intercalate r.service.current.activeIds))
  | .events => (r, .ok r.eventsText)
  | .context "" => (r, .ok r.service.current.state.context.pretty)
  | .context text => r.patch text now
  | .history => (r, .ok r.recordsText)
  | .graph => (r, .ok r.graphTree)
  | .load "" => (r, .ok "Usage: load <file>")
  | .load _ => r.load content now
  | .unknown name => (r, .ok ("Unknown command: " ++ name ++ ". Type 'help' for help."))

/-! ### Lines -/

/-- The file that a line needs, if it needs one. -/
def fileOf? (line : String) : Option String :=
  match Order.ofLine? line with
  | some (.load path) => if path.isEmpty then none else some path
  | _ => none

/-- The snapshots of timers that were not shown yet, at most as many as given. -/
def drain (r : Repl) : Nat → Repl × List Snapshot
  | 0 => (r, [])
  | n + 1 =>
    match r.alarms.tryReceive r.service.broadcaster with
    | (alarms, none) => ({ r with alarms }, [])
    | (alarms, some s) =>
      let (r, others) := { r with alarms }.drain n
      (r, s :: others)

/-- Fires the timers that are due, and shows what they did. -/
def tick (r : Repl) (now : Nat) : Repl × String :=
  let service := r.service.fireDue now
  let (r, snapshots) := { r with service }.drain service.broadcaster.channel.kept.length
  (r, String.join (snapshots.map fun s =>
    "\n" ++ r.paint [.magenta] "[timer]" ++ " " ++ r.stepLine s.state ++ "\n"))

/-- Answers a line.  Tells what is shown, and the conversation after it unless it is
over. -/
def answer (r : Repl) (line : String) (content : Except String String) (now : Nat) :
    String × Option Repl :=
  let (r, news) := r.tick now
  match Order.ofLine? line with
  | none => (news, some r)
  | some .quit => (news, none)
  | some order =>
    match r.refresh.perform order content now with
    | (r, .ok text) => (news ++ text ++ "\n\n", some r)
    | (r, .error e) =>
      (news ++ r.paint [.red] "Error" ++ ": " ++ e.message ++ "\n\n", some r)

/-- The exit code of a program that cannot go on. -/
def brokenCode : Nat := 101

/-- What is shown at the end of the input. -/
def farewell : String := "^D\n"

/-- Everything that is shown while some lines are typed at one moment, and the exit code.
A line whose backspaces cannot be carried out is the end. -/
def converse (readFile : String → Except String String) (now : Nat) (r : Repl) :
    List String → String × Nat
  | [] => (r.prompt ++ farewell, 0)
  | line :: rest =>
    match TypedLine.ofText? line with
    | none => (r.prompt, brokenCode)
    | some line =>
      let content := match fileOf? line with
        | none => .ok ""
        | some path => readFile path
      match r.answer line content now with
      | (text, some next) =>
        let (later, code) := converse readFile now next rest
        (r.prompt ++ text ++ later, code)
      | (text, none) => (r.prompt ++ text, 0)

end Repl

end Statechart.CommandLine
