import Parley.Player.Input
import Parley.Player.SavedGame
import Parley.Player.Script
import Parley.Play.Session

/-! A game as both players play it: a session, the cursor over the responses of its active branch, and
the disk that games are saved to. The players differ in what they show, never in what happens. -/

namespace Parley

/-- What a game is played with. None of it changes while the game goes on. -/
structure Setup where
  script : Script
  options : Options
  saveFile : String

structure Game where
  session : Session
  cursor : Cursor
  disk : Disk

inductive Phase
  | choosing (branch : Branch)
  | over

/-- What came of an input: the turn goes on, or it is finished and another begins, or the player left.
A key is pressed in vain when the dialogue is over. -/
inductive Reply
  | pointed
  | vain
  | finished (status : String) (overwrites : List Overwrite)
  | left

namespace Session

def phase (session : Session) : Except Failure Phase :=
  if session.isFinished then
    .ok .over
  else do
    let branch ← session.dialogue.activeBranch
    if branch.responses.isEmpty then throw ⟨.play (.speechless branch.header), none⟩
    return .choosing branch

end Session

namespace Setup

def saved (setup : Setup) (session : Session) : SavedGame :=
  ⟨setup.script.path, setup.options.hostCommands, setup.options.strict, session.dialogue.active⟩

/-- The session that a saved game describes, if it was saved from the same dialogue. The options are
those of this game. -/
def resume (setup : Setup) (saved : SavedGame) : Except Failure Session :=
  if saved.source = setup.script.path then
    Session.resume setup.options setup.script.text saved.active
  else
    .error ⟨.command (.saveOfOther setup.script.path saved.source), none⟩

end Setup

namespace Game

/-- Every turn begins at the first response. -/
def beginTurn (game : Game) : Except Failure (Phase × Game) := do
  let phase ← game.session.phase
  match phase with
  | .over => return (.over, game)
  | .choosing branch =>
    return (.choosing branch, { game with cursor := .start branch.responses.length })

def save (setup : Setup) (game : Game) : Game × Except Failure String :=
  let (disk, result) := (setup.saved game.session).save game.disk setup.saveFile
  ({ game with disk }, result.map fun _ => s!"saved to {setup.saveFile}")

/-- A game that cannot be loaded leaves the present one as it is. -/
def load (setup : Setup) (game : Game) : Game × Except Failure String :=
  match SavedGame.load game.disk setup.saveFile >>= setup.resume with
  | .ok session => ({ game with session }, .ok s!"loaded from {setup.saveFile}")
  | .error failure => (game, .error failure)

def restart (setup : Setup) (game : Game) : Game × Except Failure String :=
  match Session.ofSource setup.options setup.script.text with
  | .ok session => ({ game with session }, .ok "restarted")
  | .error failure => (game, .error failure)

def report : Game × Except Failure String → Reply × Game
  | (game, .ok status) => (.finished status [], game)
  | (game, .error failure) => (.finished failure.message [], game)

/-- What a choice tells the user: the directive that it leaves for the host. -/
def statusOf (external : Option Directive) : String :=
  match external with
  | some directive => s!"{directive.command.name} {directive.argument}"
  | none => ""

def press (key : Key) (game : Game) : Except Failure (Reply × Game) :=
  if game.session.isFinished then
    .ok (.vain, game)
  else
    match game.cursor.confirmed? key with
    | none => .ok (.pointed, { game with cursor := game.cursor.press key })
    | some index => do
      let taken ← game.session.choose index
      return (.finished (statusOf taken.external) taken.overwrites,
        { game with session := taken.session })

/-- Help is a matter of what is shown, so the game passes it over. -/
def respond (setup : Setup) (game : Game) : Input → Except Failure (Reply × Game)
  | .key key => game.press key
  | .action .save => .ok (report (game.save setup))
  | .action .load => .ok (report (game.load setup))
  | .action .restart => .ok (report (game.restart setup))
  | .action .help => .ok (.pointed, game)
  | .action .quit => .ok (.left, game)

end Game

end Parley
