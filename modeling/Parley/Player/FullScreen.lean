import Parley.Player.Game
import Parley.Player.Panel
import Parley.Player.Step

namespace Parley

/-- What reaches the player. The message is typed while no key is waiting: a tick is the time of one
character, a lull lasts until the message is out. A notice is any event but a key press, such as the
release of a key. -/
inductive Event
  | press (press : KeyPress)
  | tick
  | lull
  | notice
  deriving DecidableEq, Repr

structure ScreenPlay where
  game : Game
  panel : Panel

namespace ScreenPlay

def draw (play : ScreenPlay) : Step ScreenPlay Panel := .stay play [play.panel]

def beginTurn (play : ScreenPlay) : Step ScreenPlay Panel :=
  match play.game.beginTurn with
  | .error failure => ⟨play, [], [], some (.failed failure)⟩
  | .ok (.over, game) => draw ⟨game, play.panel.markEnded⟩
  | .ok (.choosing branch, game) => draw ⟨game, play.panel.showBranch branch game.cursor.index⟩

def start (game : Game) : Step ScreenPlay Panel := beginTurn ⟨game, .start⟩

/-- Whether the message is to be typed again after an input: a turn was taken, or the session may have
been replaced. -/
def renews : Input → Bool
  | .key _ => true
  | .action action => action = .load || action = .restart

def receive (setup : Setup) (play : ScreenPlay) (input : Input) : Step ScreenPlay Panel :=
  match play.game.respond setup input with
  | .error failure => ⟨play, [], [], some (.failed failure)⟩
  | .ok (.left, game) => ⟨{ play with game }, [], [], some .left⟩
  | .ok (.vain, game) =>
    draw ⟨game, { play.panel with status := "dialogue ended: r restart | l load | q quit" }⟩
  | .ok (.pointed, game) =>
    match game.session.phase with
    | .ok (.choosing branch) => draw ⟨game, play.panel.showBranch branch game.cursor.index⟩
    | _ => draw { play with game }
  | .ok (.finished status overwrites, game) =>
    let panel := (if renews input then play.panel.beginTurn else play.panel).report status
    Step.andThen ⟨⟨game, panel⟩, [panel], overwrites, none⟩ beginTurn

/-- While the message is being typed, confirming it only finishes it and moving waits. -/
def press (setup : Setup) (play : ScreenPlay) (input : Input) : Step ScreenPlay Panel :=
  match input with
  | .action .help => draw { play with panel := play.panel.toggleHelp }
  | .key .confirm =>
    if play.panel.isTyping then draw { play with panel := play.panel.finishTyping }
    else receive setup play input
  | .key .up | .key .down =>
    if play.panel.isTyping then
      draw { play with panel := { play.panel with status := "text streaming..." } }
    else receive setup play input
  | _ => receive setup play input

def tick (play : ScreenPlay) : Step ScreenPlay Panel := draw { play with panel := play.panel.tick }

/-- A number of ticks, each of which shows. -/
def ticks : Nat → ScreenPlay → Step ScreenPlay Panel
  | 0, play => .stay play []
  | count + 1, play => (tick play).andThen (ticks count)

def respond (setup : Setup) (play : ScreenPlay) : Event → Step ScreenPlay Panel
  | .press key => press setup play (Input.ofPress key)
  | .tick => tick play
  | .lull => ticks (play.panel.message.length - play.panel.typed) play
  | .notice => draw play

end ScreenPlay

end Parley
