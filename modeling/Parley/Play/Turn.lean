import Parley.Play.Choice
import Parley.Play.Cursor

namespace Parley

/-- How a terminal stops working: at the next drawing, or at the next key after one. -/
inductive Breakdown
  | drawing (failure : Failure)
  | listening (failure : Failure)
  deriving DecidableEq, Repr

/-- A terminal as a turn sees it: keys come one by one, each after a drawing, until it breaks down. -/
structure Terminal where
  keys : List Key
  breakdown : Breakdown
  deriving DecidableEq, Repr

structure View where
  branch : Branch
  cursor : Nat
  deriving DecidableEq, Repr

/-- A reading of a choice: what was shown on the way, which keys nobody read, and what came of it. -/
structure Reading where
  views : List View
  unread : List Key
  outcome : Except Failure Nat

namespace Terminal

def readFrom (branch : Branch) (breakdown : Breakdown) (cursor : Cursor) : List Key → Reading
  | [] =>
    match breakdown with
    | .drawing failure => ⟨[], [], .error failure⟩
    | .listening failure => ⟨[⟨branch, cursor.index⟩], [], .error failure⟩
  | key :: rest =>
    match cursor.confirmed? key with
    | some index => ⟨[⟨branch, cursor.index⟩], rest, .ok index⟩
    | none =>
      let later := readFrom branch breakdown (cursor.press key) rest
      { later with views := ⟨branch, cursor.index⟩ :: later.views }

end Terminal

namespace Dialogue

/-- A branch without responses is refused before anything is shown. -/
def readChoice (dialogue : Dialogue) (terminal : Terminal) : Reading :=
  match dialogue.activeBranch with
  | .error failure => ⟨[], terminal.keys, .error failure⟩
  | .ok branch =>
    if branch.responses.isEmpty then
      ⟨[], terminal.keys, .error ⟨.play (.speechless branch.header), none⟩⟩
    else
      Terminal.readFrom branch terminal.breakdown (.start branch.responses.length) terminal.keys

def runTurn (dialogue : Dialogue) (terminal : Terminal) : Except Failure Chosen := do
  dialogue.choose (← (dialogue.readChoice terminal).outcome)

end Dialogue

end Parley
