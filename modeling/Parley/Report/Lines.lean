import Parley.Json.Text
import Parley.Play.Scene

/-! Reports: records of one line each. Every text that could hold a line break is written as a JSON
string, so no text can pass for a record. -/

namespace Parley.Report

def ofLines (lines : List String) : String := String.join (lines.map (· ++ "\n"))

def failure (failure : Failure) : List String :=
  ["RESULT:ERROR", s!"ERROR_CODE:{failure.code}", s!"ERROR_MSG_JSON:{Json.quote failure.message}"] ++
    match failure.mark with
    | none => []
    | some mark =>
      [s!"ERROR_INDEX:{mark.place.index}", s!"ERROR_AT:{mark.place.line}:{mark.place.column}"]

def external (directive : Directive) : String :=
  s!"EXTERNAL:{directive.command.name}|{Json.quote directive.argument}"

def scene (scene : Scene) : List String :=
  [s!"HEADER_JSON:{Json.quote scene.header}", s!"MESSAGE_JSON:{Json.quote scene.message}"] ++
    scene.choices.zipIdx.map fun (choice, index) => s!"CHOICE:{index}|{Json.quote choice}"

/-- `savedTo` is where the game can be taken up again, if it can be. -/
def moment (moment : Moment) (savedTo : Option String) : List String :=
  ["RESULT:OK", if moment.scene.isSome then "EVENT:BRANCH" else "EVENT:END",
    s!"TITLE_JSON:{Json.quote moment.title}"]
    ++ moment.external.toList.map external
    ++ (moment.scene.map scene).getD []
    ++ ["STATE_OUT:" ++ savedTo.getD "NONE"]

end Parley.Report
