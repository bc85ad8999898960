import Parley.Compile.Options
import Parley.Files.Disk
import Parley.Json.Value

namespace Parley

/-- The dialogue is named and not copied; it is compiled again, with the same options, when play goes
on. -/
structure SavedGame where
  source : String
  hostCommands : List String
  strict : Bool
  active : String
  deriving DecidableEq, Repr

namespace SavedGame

def schema : String := "qdl-player-state.v1"

def options (game : SavedGame) : Options := .ofNames game.hostCommands game.strict

def render (game : SavedGame) : String :=
  let names := ",".intercalate (game.hostCommands.map Json.quote)
  String.join
    ["\x7b\"schemaVersion\":", Json.quote schema, ",\"sourcePath\":", Json.quote game.source,
      ",\"hostCommands\":[", names, "],\"strictReferences\":", if game.strict then "true" else "false",
      ",\"activeHeader\":", Json.quote game.active, "\x7d"]

def text? : Json.Value → Option String
  | .text content => content
  | _ => none

def texts? : Json.Value → Option (List String)
  | .list items => items.mapM text?
  | _ => none

def flag? : Json.Value → Option Bool
  | .bool value => some value
  | _ => none

/-- The value of a field that may be written once at most; the outer `none` says that it is written
twice. -/
def entry? (entries : List (Option String × Json.Value)) (key : String) :
    Option (Option Json.Value) :=
  match entries.filter fun entry => entry.1 = some key with
  | [] => some none
  | [entry] => some (some entry.2)
  | _ => none

/-- The schema and the game that a value describes: an object, whose other fields do not matter, or the
list of the five values in the order in which they are written. -/
def ofValue? : Json.Value → Option (String × SavedGame)
  | .fields entries => do
    if entries.any fun entry => entry.1.isNone then none
    let written ← text? (← ← entry? entries "schemaVersion")
    let source ← text? (← ← entry? entries "sourcePath")
    let hostCommands ← ((← entry? entries "hostCommands").map texts?).getD (some [])
    let strict ← ((← entry? entries "strictReferences").map flag?).getD (some false)
    let active ← text? (← ← entry? entries "activeHeader")
    return (written, ⟨source, hostCommands, strict, active⟩)
  | .list [written, source, hostCommands, strict, active] => do
    return (← text? written,
      ⟨← text? source, ← texts? hostCommands, ← flag? strict, ← text? active⟩)
  | _ => none

def ofText (text : String) : Except Failure SavedGame :=
  match (Json.parse? text.toList).bind ofValue? with
  | none => .error ⟨.command .saveMalformed, none⟩
  | some (written, game) =>
    if written = schema then .ok game else .error ⟨.command (.saveForeign written), none⟩

def load (disk : Disk) (path : String) : Except Failure SavedGame :=
  if disk.exists? path then
    match disk.read path with
    | .ok text => ofText text
    | .error fault => .error ⟨.command (.saveUnreadable fault), none⟩
  else
    .error ⟨.command (.saveMissing path), none⟩

def save (disk : Disk) (path : String) (game : SavedGame) : Disk × Except Failure Unit :=
  let (disk, result) := disk.save path game.render.toUTF8
  (disk, result.mapError fun fault => ⟨.command (.saveUnwritable fault), none⟩)

end SavedGame

end Parley
