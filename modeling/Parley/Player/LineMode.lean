import Parley.Player.Game
import Parley.Player.Step

namespace Parley

inductive Typed
  | line (text : String)
  | garbled
  | closed
  deriving DecidableEq, Repr

namespace Typed

/-- The lines of a stream, without their line feeds. What follows the last line feed is a line if it is
anything at all. -/
def chunks : List UInt8 → List (List UInt8)
  | [] => []
  | byte :: rest =>
    if byte = 10 then [] :: chunks rest
    else
      match chunks rest with
      | [] => [[byte]]
      | chunk :: more => (byte :: chunk) :: more

def ofChunk (chunk : List UInt8) : Typed :=
  match String.fromUTF8? ⟨chunk.toArray⟩ with
  | some text => .line text
  | none => .garbled

def ofBytes (bytes : ByteArray) : List Typed := (chunks bytes.toList).map ofChunk

end Typed

/-- The message of a branch is shown once a turn, its responses after every key. -/
structure LinePlay where
  game : Game
  messageShown : Bool

namespace LinePlay

def commandHelp : String :=
  "commands: k up | j down | empty line choose | :save :load :restart :help :quit"

def prompt : String := "> "

def responseLines (branch : Branch) (cursor : Nat) : String :=
  String.join (branch.responses.zipIdx.map fun (response, index) =>
    (if index = cursor then ">" else " ") ++ s!" [{index}] {response.text}\n")

def showBranch (branch : Branch) (play : LinePlay) : Step LinePlay String :=
  let message := if play.messageShown then "" else s!"\n{branch.message}\n"
  .stay { play with messageShown := true }
    [message, responseLines branch play.game.cursor.index, prompt]

def beginTurn (play : LinePlay) : Step LinePlay String :=
  match play.game.beginTurn with
  | .error failure => ⟨play, [], [], some (.failed failure)⟩
  | .ok (.over, game) => .stay { play with game } ["\n[END]\n", prompt]
  | .ok (.choosing branch, game) => showBranch branch { play with game }

/-- The lines that introduce the game, and its first turn. -/
def start (game : Game) : Step LinePlay String :=
  (Step.stay ⟨game, false⟩ [s!"QDL TUI | {game.session.dialogue.title}\n{commandHelp}\n"]).andThen
    beginTurn

def receive (setup : Setup) (play : LinePlay) (input : Input) : Step LinePlay String :=
  match play.game.respond setup input with
  | .error failure => ⟨play, [], [], some (.failed failure)⟩
  | .ok (.left, game) => ⟨{ play with game }, [], [], some .left⟩
  | .ok (.vain, game) =>
    .stay { play with game } ["dialogue ended: :restart :load :quit\n", prompt]
  | .ok (.pointed, game) =>
    match game.session.phase with
    | .ok (.choosing branch) => showBranch branch { play with game }
    | _ => .stay { play with game } [prompt]
  | .ok (.finished status overwrites, game) =>
    let shown := if status.isEmpty then [] else [s!"* {status}\n"]
    Step.andThen ⟨⟨game, false⟩, shown, overwrites, none⟩ beginTurn

/-- The end of the input is a way to leave. -/
def respond (setup : Setup) (play : LinePlay) : Typed → Step LinePlay String
  | .closed => ⟨play, [], [], some .left⟩
  | .garbled => ⟨play, [], [], some (.failed ⟨.command (.terminal .notText), none⟩)⟩
  | .line text =>
    match Input.ofLine text with
    | .action .help => .stay play [commandHelp ++ "\n", prompt]
    | input => receive setup play input

end LinePlay

end Parley
