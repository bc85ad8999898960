import Parley.Cli.Arguments
import Parley.Player.FullScreen
import Parley.Player.LineMode
import Parley.Player.Screen
import Parley.Report.Check

namespace Parley.Cli

inductive Console
  | stream (typed : List Typed)
  | terminal (width height : Nat) (events : List Event)

/-- `warnings` go to the log, `frames` are the screens that were drawn. -/
structure Outcome where
  code : Nat
  output : String
  warnings : List String
  frames : List (List Line)
  disk : Disk

namespace Outcome

def success (disk : Disk) (lines : List String) (overwrites : List Overwrite) : Outcome :=
  ⟨0, Report.ofLines lines, overwrites.map Overwrite.warning, [], disk⟩

def fail (outcome : Outcome) (failure : Failure) : Outcome :=
  { outcome with
    code := 1
    output := outcome.output ++ Report.ofLines (Report.failure failure) }

def failure (disk : Disk) (failure : Failure) : Outcome := (success disk [] []).fail failure

end Outcome

namespace Compiling

def options (compiling : Compiling) : Options := .ofNames compiling.hostCommands compiling.strict

end Compiling

def defaultSaveFile : String := ".qdl/save.json"

/-- Reports a moment of a session. The game is only saved while there is a branch to come back to, and
nothing is reported unless it was saved. -/
def emit (disk : Disk) (setup : Setup) (session : Session) (external : Option Directive)
    (overwrites : List Overwrite) : Outcome :=
  match session.describe external with
  | .error failure => { Outcome.failure disk failure with warnings := overwrites.map Overwrite.warning }
  | .ok moment =>
    if moment.scene.isSome then
      match (setup.saved session).save disk setup.saveFile with
      | (disk, .error failure) =>
        { Outcome.failure disk failure with warnings := overwrites.map Overwrite.warning }
      | (disk, .ok ()) => .success disk (Report.moment moment (some setup.saveFile)) overwrites
    else
      .success disk (Report.moment moment none) overwrites

def startGame (disk : Disk) (compiling : Compiling) (saveTo : String) : Except Failure Outcome := do
  let script ← Script.load disk compiling.source
  let session ← Session.ofSource compiling.options script.text
  return emit disk ⟨script, compiling.options, saveTo⟩ session none []

def chooseOnce (disk : Disk) (saveFrom : String) (choice : Nat) (saveTo : String) :
    Except Failure Outcome := do
  let saved ← SavedGame.load disk saveFrom
  let script ← Script.load disk saved.source
  let session ← Session.resume saved.options script.text saved.active
  let taken ← session.choose choice
  return emit disk ⟨script, saved.options, saveTo⟩ taken.session taken.external taken.overwrites

def conclude (output : String) (frames : List (List Line)) (disk : Disk)
    (overwrites : List Overwrite) (ending : Option Ending) : Outcome :=
  let outcome : Outcome := ⟨0, output, overwrites.map Overwrite.warning, frames, disk⟩
  match ending with
  | some (.failed failure) => outcome.fail failure
  | some .left | none => outcome

def playStream (setup : Setup) (game : Game) (typed : List Typed) : Outcome :=
  let last := (LinePlay.start game).andThen fun play =>
    Step.run (LinePlay.respond setup) play (typed ++ [.closed])
  conclude (String.join last.shown) [] last.state.game.disk last.overwrites last.ending

def playTerminal (setup : Setup) (game : Game) (width height : Nat) (events : List Event) : Outcome :=
  let last := (ScreenPlay.start game).andThen fun play =>
    Step.run (ScreenPlay.respond setup) play events
  let heading := ⟨game.session.dialogue.title, setup.script.path, setup.saveFile⟩
  conclude "" (last.shown.map (Screen.render heading width height)) last.state.game.disk
    last.overwrites last.ending

def openGame (disk : Disk) (compiling : Compiling) (saveFile : Option String) :
    Except Failure (Setup × Game) := do
  let script ← Script.load disk compiling.source
  let session ← Session.ofSource compiling.options script.text
  return (⟨script, compiling.options, saveFile.getD defaultSaveFile⟩, ⟨session, .start 0, disk⟩)

def playGame (disk : Disk) (console : Console) (compiling : Compiling) (saveFile : Option String) :
    Except Failure Outcome := do
  let (setup, game) ← openGame disk compiling saveFile
  match console with
  | .stream typed => return playStream setup game typed
  | .terminal width height events => return playTerminal setup game width height events

/-- The compiled sources up to the first file that is no text, which stops the check. -/
def compileAll (options : Options) :
    List (String × ByteArray) → List (String × Except Failure Dialogue) × Option Failure
  | [] => ([], none)
  | (path, content) :: rest =>
    match String.fromUTF8? content with
    | none => ([], some ⟨.command (.sourceUnreadable .notText), none⟩)
    | some text =>
      let (results, stopped) := compileAll options rest
      ((path, compile options text) :: results, stopped)

def checkWarning? (result : String × Except Failure Dialogue) : Option String :=
  match result.2 with
  | .ok _ => none
  | .error failure => some s!"{result.1}: {failure.display}"

def checkSources (disk : Disk) (compiling : Compiling) (json : Bool) : Except Failure Outcome := do
  let root ← Script.resolve disk compiling.source
  let files ← Script.collect disk root
  let (results, stopped) := compileAll compiling.options files
  let warnings := results.filterMap checkWarning?
  match stopped with
  | some failure => return { Outcome.failure disk failure with warnings }
  | none =>
    let code := if results.all fun result => result.2.isOk then 0 else 1
    return ⟨code, Report.ofLines (Report.check json results), warnings, [], disk⟩

/-- A failure that leaves nothing to do is reported and changes nothing on the disk. -/
def Invocation.run (disk : Disk) (console : Console) (invocation : Invocation) : Outcome :=
  let outcome :=
    match invocation with
    | .start compiling saveTo => startGame disk compiling saveTo
    | .choose saveFrom choice saveTo => chooseOnce disk saveFrom choice saveTo
    | .play compiling saveFile => playGame disk console compiling saveFile
    | .check compiling json => checkSources disk compiling json
  match outcome with
  | .ok outcome => outcome
  | .error failure => .failure disk failure

/-- Runs a command line. One that cannot be read is a usage error, which writes nothing. -/
def run (disk : Disk) (console : Console) (arguments : List String) : Outcome :=
  match Invocation.parse? arguments with
  | some invocation => invocation.run disk console
  | none => { Outcome.success disk [] [] with code := 2 }

end Parley.Cli
