/-
How the program appears on a terminal.

Parts of what it shows may stand out in colours.  The environment has a say in it, and in
whether a prompt is shown, besides where the output goes and where the input comes from.
-/
import Statechart.Settings.Basic

namespace Statechart.CommandLine

/-- How a text stands out. -/
inductive Ink
  | bold
  | dim
  | red
  | green
  | yellow
  | magenta
  | cyan

/-- The number by which a terminal knows an ink. -/
def Ink.code : Ink → String
  | .bold => "1"
  | .dim => "2"
  | .red => "31"
  | .green => "32"
  | .yellow => "33"
  | .magenta => "35"
  | .cyan => "36"

/-- The sequence after which a terminal writes in some inks. -/
def inkSequence (inks : List Ink) : List Char :=
  ("\x1b[" ++ ";".intercalate (inks.map Ink.code) ++ "m").toList

/-- A text in which each sequence that ends all ink is followed by another. -/
def resume (sequence : List Char) : List Char → List Char
  | '\x1b' :: '[' :: '0' :: 'm' :: rest =>
    '\x1b' :: '[' :: '0' :: 'm' :: (sequence ++ resume sequence rest)
  | c :: rest => c :: resume sequence rest
  | [] => []

/-- A text in some inks up to its end, if things are coloured at all. -/
def paint (colored : Bool) (inks : List Ink) (text : String) : String :=
  if colored then
    let sequence := inkSequence inks
    String.ofList (sequence ++ resume sequence text.toList) ++ "\x1b[0m"
  else text

/-- Without colours, a text stays as it is. -/
@[simp] theorem paint_false (inks : List Ink) (text : String) : paint false inks text = text :=
  rfl

/-- A text without control sequences needs no more ink than it begins with. -/
theorem resume_eq_self {sequence s : List Char} (h : '\x1b' ∉ s) : resume sequence s = s := by
  fun_induction resume sequence s with
  | case1 rest ih => simp at h
  | case2 c rest hc ih => rw [ih fun hmem => h (List.mem_cons_of_mem _ hmem)]
  | case3 => rfl

/-- How the program appears. -/
structure Appearance where
  /-- Whether things stand out in colours. -/
  colored : Bool
  /-- Whether a prompt is shown before each line. -/
  prompted : Bool

namespace Appearance

/-- The variables that have a say in it. -/
def variableNames : List String := ["CLICOLOR_FORCE", "NO_COLOR", "CLICOLOR", "TERM"]

/-- Whether there are colours: the environment may force or forbid them, or else the output
has to go to a terminal. -/
def wantsColor (var : Variables) (onTerminal : Bool) : Bool :=
  if (var "CLICOLOR_FORCE").any (· != "0") then true
  else if (var "NO_COLOR").isSome then false
  else var "CLICOLOR" != some "0" && onTerminal

/-- The terminals on which a line cannot be edited. -/
def plainTerminals : List String := ["dumb", "cons25", "emacs"]

/-- Whether there is a prompt: where a line is edited, and on a terminal where it cannot
be. -/
def wantsPrompt (var : Variables) (fromTerminal : Bool) : Bool :=
  fromTerminal || ((var "TERM").any fun name => plainTerminals.contains name.toLower)

/-- How the program appears by the environment and the settings. -/
def ofEnvironment (var : Variables) (settings : Settings) (fromTerminal onTerminal : Bool) :
    Appearance where
  colored := settings.color && wantsColor var onTerminal
  prompted := wantsPrompt var fromTerminal

end Appearance

end Statechart.CommandLine
