/-
What a terminal shows of a text.

Some characters control a terminal, alone or in sequences that begin with an escape.  They
do not show; all that does not belong to a sequence does, control characters other than
white space excepted.
-/

namespace Statechart.Text

/-- Where a text stands with respect to control sequences. -/
inductive TerminalState
  /-- Outside of all. -/
  | text
  /-- After an escape. -/
  | escape
  /-- After an escape and some marks. -/
  | marked
  /-- In a sequence with parameters, which a letter ends. -/
  | parameters
  /-- In a title, which a bell ends. -/
  | title
  /-- In data for the terminal, which only another escape ends. -/
  | data
  deriving DecidableEq

namespace TerminalState

/-- Whether a character is white space that controls. -/
def isControlBlank (c : Char) : Bool :=
  c == '\t' || c == '\n' || c == '\x0c' || c == '\r'

/-- What a character after an escape begins. -/
def afterEscape (c : Char) : TerminalState :=
  if c < '0' then .marked
  else if c == '[' then .parameters
  else if c == ']' then .title
  else if c == 'P' || c == 'X' || c == '^' || c == '_' then .data
  else .text

/-- The state after a character, and whether the character shows. -/
def step (s : TerminalState) (c : Char) : TerminalState × Bool :=
  let isControl := c.toNat < 32 || c.toNat == 127
  if c == '\x18' || c == '\x1a' then (.text, false)
  else if c == '\x1b' then (.escape, false)
  else
    match s with
    | .text => (.text, !isControl || isControlBlank c)
    | .title => (if c == '\x07' then .text else .title, false)
    | .data => (.data, false)
    | s =>
      if isControlBlank c then (.text, true)
      else if isControl || 128 ≤ c.toNat then (s, false)
      else
        match s with
        | .escape => (afterEscape c, false)
        | .marked => (if c < '0' then .marked else .text, false)
        | s => (if c < '@' then s else .text, false)

/-- The characters of a text, each with whether it shows. -/
def marks (s : TerminalState) : List Char → List (Char × Bool)
  | [] => []
  | c :: rest =>
    let (next, shows) := s.step c
    (c, shows) :: next.marks rest

end TerminalState

/-- What a terminal shows of a text. -/
def shownText (s : List Char) : List Char :=
  ((TerminalState.text.marks s).filter (·.2)).map (·.1)

/-- The parts of a text that show and those that do not, in turn. -/
def shownParts (s : List Char) : List (List Char × Bool) :=
  ((TerminalState.text.marks s).splitBy fun a b => a.2 == b.2).map fun part =>
    (part.map (·.1), (part.head?.map (·.2)).getD false)

/-- A text of printable characters shows as it is. -/
theorem shownText_eq_self {s : List Char} (h : ∀ c ∈ s, 32 ≤ c.toNat ∧ c.toNat ≠ 127) :
    shownText s = s := by
  have hstep : ∀ c : Char, 32 ≤ c.toNat ∧ c.toNat ≠ 127 →
      TerminalState.text.step c = (.text, true) := by
    intro c ⟨hlow, hdel⟩
    have h18 : ¬ c = '\x18' := by rintro rfl; revert hlow; decide
    have h1a : ¬ c = '\x1a' := by rintro rfl; revert hlow; decide
    have h1b : ¬ c = '\x1b' := by rintro rfl; revert hlow; decide
    have hc : ¬ c.toNat < 32 := by omega
    simp [TerminalState.step, h18, h1a, h1b, hc, hdel]
  induction s with
  | nil => rfl
  | cons c rest ih =>
    have hrest := ih fun d hd => h d (List.mem_cons_of_mem _ hd)
    simp only [shownText] at hrest ⊢
    simp [TerminalState.marks, hstep c (h c (List.mem_cons_self ..)), hrest]

end Statechart.Text
