import Parley.Failure
import Parley.Play.Cursor
import Parley.Text.Blank

namespace Parley

/-- Requests that are about the game and not about the responses on show. -/
inductive Action
  | help
  | save
  | load
  | restart
  | quit
  deriving DecidableEq, Repr

inductive Input
  | key (key : Key)
  | action (action : Action)
  deriving DecidableEq, Repr

/-- The keys of a keyboard that mean something here; all others are alike. -/
inductive KeyCode
  | char (c : Char)
  | escape
  | enter
  | up
  | down
  | other
  deriving DecidableEq, Repr

structure KeyPress where
  code : KeyCode
  control : Bool
  deriving DecidableEq, Repr

namespace Action

def name : Action → String
  | help => "help"
  | save => "save"
  | load => "load"
  | restart => "restart"
  | quit => "quit"

def ofName? : String → Option Action
  | "help" => some help
  | "save" => some save
  | "load" => some load
  | "restart" => some restart
  | "quit" => some quit
  | _ => none

@[simp]
theorem ofName?_name (action : Action) : ofName? action.name = some action := by
  cases action <;> rfl

def signalCode : String := "TUI_ACTION"

/-- The failure by which a terminal breaks off a turn for the sake of an action. -/
def signal (action : Action) : Failure := ⟨.raised signalCode action.name, none⟩

def ofFailure? (failure : Failure) : Option Action :=
  if failure.code = signalCode then ofName? failure.message else none

@[simp]
theorem ofFailure?_signal (action : Action) : ofFailure? action.signal = some action := by
  simp [ofFailure?, signal, Failure.code, Failure.message, Cause.code, Cause.message]

end Action

namespace Input

/-- A colon introduces an action; anything unknown behind it is still not a choice. -/
def ofLine (line : String) : Input :=
  match Text.trim line.toList with
  | ':' :: name =>
    match Action.ofName? (String.ofList name) with
    | some request => .action request
    | none => .key .other
  | [] => .key .confirm
  | text =>
    let word := String.ofList text
    if word = "k" || word = "up" then .key .up
    else if word = "j" || word = "down" then .key .down
    else .key .other

/-- Control only matters together with `c`; every other key is read without it. -/
def ofPress (press : KeyPress) : Input :=
  if press.control && press.code = .char 'c' then .action .quit
  else
    match press.code with
    | .escape | .char 'q' => .action .quit
    | .char 'h' => .action .help
    | .char 's' => .action .save
    | .char 'l' => .action .load
    | .char 'r' => .action .restart
    | .up | .char 'k' => .key .up
    | .down | .char 'j' => .key .down
    | .enter | .char ' ' => .key .confirm
    | .char _ | .other => .key .other

end Input

end Parley
