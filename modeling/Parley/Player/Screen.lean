import Parley.Player.Panel
import Parley.Player.Wrap
import Parley.Text.Blank

namespace Parley

inductive Color
  | reset
  | gray
  | cyan
  | green
  | yellow
  | magenta
  deriving DecidableEq, Repr

structure Line where
  text : List Char
  color : Color
  deriving DecidableEq, Repr

structure Heading where
  title : String
  source : String
  saveFile : String
  deriving DecidableEq, Repr

namespace Screen

def keyHelp : String :=
  "keys: up/k down/j move | enter/space choose | s save | l load | r restart | h help | q quit"

def saveHelp : String :=
  "a save keeps the current branch only. loading recompiles the dialogue and resumes there."

/-- A margin of two cells is left where the screen is wide enough for one. -/
def contentWidth (width : Nat) : Nat := max (width - 2) 16

/-- The rows set aside for everything but the message. -/
def reservedRows (panel : Panel) : Nat :=
  3 + 1 + Panel.window + 1 + 1 + panel.ended.toNat + panel.help.toNat +
    (!panel.header.isEmpty).toNat

/-- Of a message too long for the screen, the last rows stay visible. -/
def messageRows (width height : Nat) (panel : Panel) : List (List Char) :=
  let rows := Text.wrap (contentWidth width) panel.visible
  rows.drop (rows.length - max (height - reservedRows panel) 1)

/-- The choices are hidden while the message is being typed. -/
def showsChoices (panel : Panel) : Bool := !panel.isTyping && !panel.choices.isEmpty

def choiceLine (width : Nat) (panel : Panel) (row : Nat) : Line :=
  let index := panel.scroll + row
  match if showsChoices panel then panel.choices[index]? else none with
  | none => ⟨"   ".toList, .reset⟩
  | some choice =>
    let chosen := index = panel.selected
    let text := Text.truncate (max (contentWidth width - 6) 8) choice.toList
    ⟨(if chosen then "> " else "  ").toList ++ s!"[{index}] ".toList ++ text,
      if chosen then .green else .reset⟩

def windowText (width : Nat) (panel : Panel) : List Char :=
  let count := panel.choices.length
  if showsChoices panel && Panel.window < count then
    let first := panel.scroll + 1
    let last := min (panel.scroll + Panel.window) count
    Text.truncate (contentWidth width) s!"window {first}-{last} / {count}".toList
  else if panel.isTyping then "enter to skip".toList
  else [' ']

def lines (heading : Heading) (width height : Nat) (panel : Panel) : List Line :=
  let fit (text : String) : List Char := Text.truncate (contentWidth width) text.toList
  [⟨fit s!"{heading.title} | {heading.source}", .reset⟩,
    ⟨fit s!"state: {heading.saveFile}", .gray⟩,
    ⟨fit s!"status: {panel.status}", .gray⟩]
    ++ (if panel.header.isEmpty then [] else [⟨fit s!"[{panel.header}]", .cyan⟩])
    ++ (messageRows width height panel).map (⟨·, .reset⟩)
    ++ [⟨List.replicate (contentWidth width) '─', .gray⟩]
    ++ (List.range Panel.window).map (choiceLine width panel)
    ++ [⟨windowText width panel, .gray⟩]
    ++ (if panel.ended then [⟨"[end]".toList, .green⟩] else [])
    ++ [⟨fit keyHelp, .yellow⟩]
    ++ (if panel.help then [⟨fit saveHelp, .magenta⟩] else [])

/-- Whether a row may break at a character. A no-break space holds its neighbours together. -/
def breaksAt (c : Char) : Bool := Text.isBlank c && c ≠ '\u00a0'

/-- A line of nothing but breaks ends before its first word, which never comes: it takes an empty row and
a row of its own. -/
def paintLine (line : Line) : List Line :=
  if line.text ≠ [] && line.text.all breaksAt then [⟨[], .reset⟩, line] else [line]

/-- The rows of the screen from the top; lines past its height are lost. -/
def paint (height : Nat) (lines : List Line) : List Line :=
  let rows := (lines.flatMap paintLine).take height
  rows ++ List.replicate (height - rows.length) ⟨[], .reset⟩

def render (heading : Heading) (width height : Nat) (panel : Panel) : List Line :=
  paint height (lines heading width height panel)

end Screen

end Parley
