import Parley.Dialogue.Basic

namespace Parley

structure Panel where
  header : String
  message : String
  typed : Nat
  choices : List String
  selected : Nat
  scroll : Nat
  fresh : Bool
  ended : Bool
  help : Bool
  status : String
  deriving DecidableEq, Repr

namespace Panel

def window : Nat := 5

def start : Panel := ⟨"", "", 0, [], 0, 0, true, false, false, "ready"⟩

/-- Highlights a response, and scrolls no further than it takes to have it in the window. -/
def select (panel : Panel) (cursor : Nat) : Panel :=
  let selected := min cursor (panel.choices.length - 1)
  let above := min panel.scroll selected
  let scroll := if above + window ≤ selected then selected + 1 - window else above
  { panel with selected, scroll }

/-- A branch is only laid out anew, and its message typed again, when a turn begins. -/
def showBranch (panel : Panel) (branch : Branch) (cursor : Nat) : Panel :=
  let panel :=
    if panel.fresh || panel.header ≠ branch.header then
      { panel with
        header := branch.header
        message := branch.message
        typed := 0
        choices := branch.responses.map Response.text
        selected := 0
        scroll := 0
        fresh := false }
    else panel
  { panel with ended := false }.select cursor

def beginTurn (panel : Panel) : Panel := { panel with fresh := true }

def markEnded (panel : Panel) : Panel :=
  { panel with
    header := "", message := "", typed := 0, choices := [], selected := 0, scroll := 0
    fresh := true, ended := true }

def isTyping (panel : Panel) : Bool := panel.typed < panel.message.length

/-- Types one more character of the message, and tells whether there was one. -/
def advance (panel : Panel) : Bool × Panel :=
  if panel.isTyping then (true, { panel with typed := panel.typed + 1 }) else (false, panel)

def tick (panel : Panel) : Panel := panel.advance.2

def finishTyping (panel : Panel) : Panel := { panel with typed := panel.message.length }

def visible (panel : Panel) : List Char := panel.message.toList.take panel.typed

/-- No status is shown as being ready for the next key. -/
def report (panel : Panel) (status : String) : Panel :=
  { panel with status := if status.isEmpty then "ready" else status }

def toggleHelp (panel : Panel) : Panel := { panel with help := !panel.help }

end Panel

end Parley
