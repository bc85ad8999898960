import Parley.Cli.Run

/-! The command line. Every step surveys the parts of the real disk that it may look at, runs on that
survey, and carries out what the run changed in it. Games are played over the standard streams. -/

namespace Parley.Main

/-- What stands at an absolute path; a folder only counts as such unless its entries are asked for. -/
partial def survey? (deep : Bool) (path : String) : IO (Option Node) := do
  match ← (IO.FS.realPath path).toBaseIO with
  | .error _ => return none
  | .ok place =>
    if !(← place.isDir) then return some (.file (← IO.FS.readBinFile path))
    if !deep then return some (.folder .empty)
    let mut inside := Folder.empty
    for entry in ← place.readDir do
      if let some node ← survey? true (path ++ "/" ++ entry.fileName) then
        inside := inside.put entry.fileName node
    return some (.folder inside)

def surveyPlace (deep : Bool) (disk : Disk) (place : List String) : IO Disk := do
  match ← survey? deep (Path.ofNames place) with
  | none => return disk
  | some node =>
    let known := ((disk.root.node? place).map Node.isFolder).getD false
    if place.isEmpty || (known && node.isFolder && !deep) then return disk
    return { disk with root := disk.root.store node place }

def surveyNames (deep : Bool) (disk : Disk) (here : List String) : List String → IO Disk
  | [] => surveyPlace deep disk here
  | name :: rest => do
    let disk ← surveyPlace false disk here
    if name = "." then surveyNames deep disk here rest
    else if name = ".." then surveyNames deep disk here.dropLast rest
    else surveyNames deep disk (here ++ [name]) rest

def workingNames : IO (Option (List String)) := do
  try
    return some (Path.names (← IO.currentDir).toString)
  catch _ => return none

/-- A disk with everything that the paths lead through. -/
def survey (deep : Bool) (paths : List String) : IO Disk := do
  let working ← workingNames
  let mut disk ← surveyNames false ⟨.empty, working⟩ [] (working.getD [])
  for path in paths do
    let start := if Path.isAbsolute path then [] else working.getD []
    disk ← surveyNames deep disk start (Path.names path)
  return disk

/-- Carries out what distinguishes a folder from what it was. -/
def commit (path : String) (before : Folder) : Folder → IO Unit
  | .empty => return
  | .file name content rest => do
    let same := match before.find? name with
      | some (.file old) => old.data == content.data
      | _ => false
    unless same do IO.FS.writeBinFile (path ++ "/" ++ name) content
    commit path before rest
  | .folder name inside rest => do
    match before.find? name with
    | some (.folder old) => commit (path ++ "/" ++ name) old inside
    | _ =>
      IO.FS.createDir (path ++ "/" ++ name)
      commit (path ++ "/" ++ name) .empty inside
    commit path before rest

def warn (warnings : List String) : IO Unit := warnings.forM fun warning => IO.eprintln warning

def print (text : String) : IO Unit := do
  let output ← IO.getStdout
  output.putStr text
  output.flush

def conclude (surveyed : Disk) (outcome : Cli.Outcome) : IO UInt32 := do
  commit "" surveyed.root outcome.disk.root
  warn outcome.warnings
  print outcome.output
  return outcome.code.toUInt32

def typed (input : IO.FS.Stream) : IO Typed := do
  try
    let line ← input.getLine
    return if line.isEmpty then .closed else .line line
  catch _ => return .garbled

partial def play (setup : Setup) (input : IO.FS.Stream) (step : Step LinePlay String) : IO UInt32 := do
  warn (step.overwrites.map Overwrite.warning)
  print (String.join step.shown)
  match step.ending with
  | some .left => return 0
  | some (.failed failure) =>
    print (Report.ofLines (Report.failure failure))
    return 1
  | none =>
    let disk ← survey false [setup.saveFile]
    let now := { step.state with game := { step.state.game with disk } }
    let next := LinePlay.respond setup now (← typed input)
    commit "" disk.root next.state.game.disk.root
    play setup input next

/-- The folders and files that an invocation looks at. -/
def surveyFor (invocation : Cli.Invocation) : IO Disk := do
  match invocation with
  | .start compiling saveTo => survey false [compiling.source, saveTo]
  | .choose saveFrom _ saveTo =>
    let disk ← survey false [saveFrom]
    match SavedGame.load disk saveFrom with
    | .ok saved => survey false [saveFrom, saved.source, saveTo]
    | .error _ => return disk
  | .play compiling saveFile =>
    survey false [compiling.source, saveFile.getD Cli.defaultSaveFile]
  | .check compiling _ => survey true [compiling.source]

def usage : String :=
  "usage: agent start --source FILE --state-out FILE [--host-command NAME]... [--strict]\n" ++
  "       agent choose --state-in FILE --choice NUMBER --state-out FILE\n" ++
  "       tui --source FILE [--state-file FILE] [--host-command NAME]... [--strict]\n" ++
  "       check --source PATH [--json] [--host-command NAME]... [--strict]"

def run (arguments : List String) : IO UInt32 := do
  match Cli.Invocation.parse? arguments with
  | none =>
    IO.eprintln usage
    return 2
  | some invocation =>
    let disk ← surveyFor invocation
    match invocation with
    | .play compiling saveFile =>
      match Cli.openGame disk compiling saveFile with
      | .error failure => conclude disk (.failure disk failure)
      | .ok (setup, game) => play setup (← IO.getStdin) (LinePlay.start game)
    | other => conclude disk (other.run disk (.stream []))

end Parley.Main

def main (arguments : List String) : IO UInt32 := Parley.Main.run arguments
