import Parley.Compile
import Parley.Report.Lines

namespace Parley.Report

def jsonList (items : List String) : String := "[" ++ ",".intercalate items ++ "]"

/-- An object with its fields in the given order. -/
def jsonObject (fields : List (String × String)) : String :=
  "\x7b" ++ ",".intercalate (fields.map fun field => Json.quote field.1 ++ ":" ++ field.2) ++ "\x7d"

def commandJson (command : Command) : String :=
  match command with
  | .host name => jsonObject [("kind", Json.quote "host"), ("name", Json.quote name)]
  | builtin => jsonObject [("kind", Json.quote builtin.name)]

def responseJson (response : Response) : String :=
  jsonObject
    [("response", Json.quote response.text), ("commands", jsonList (response.commands.map commandJson)),
      ("args", jsonList (response.arguments.map Json.quote))]

def branchJson (branch : Branch) : String :=
  jsonObject
    [("header", Json.quote branch.header), ("message", Json.quote branch.message),
      ("objects", jsonList (branch.responses.map responseJson))]

def dialogueJson (dialogue : Dialogue) : String :=
  jsonObject
    [("title", Json.quote dialogue.title), ("activeHeader", Json.quote dialogue.active),
      ("branches", jsonList (dialogue.branches.map branchJson))]

def summary (path : String) (dialogue : Dialogue) : String :=
  let responses := (dialogue.branches.flatMap Branch.responses).length
  s!"CHECK_OK:{path}|{Json.quote dialogue.title}|branches={dialogue.branches.length}|" ++
    s!"responses={responses}"

def rejection (path : String) (failure : Failure) : String :=
  let place := match failure.mark with
    | some mark => s!"{mark.place.line}:{mark.place.column}"
    | none => "-"
  s!"CHECK_ERROR:{path}|{failure.code}|{place}|{Json.quote failure.message}"

def record (json : Bool) (path : String) : Except Failure Dialogue → String
  | .ok dialogue => if json then s!"TREE_JSON:{path}|{dialogueJson dialogue}" else summary path dialogue
  | .error failure => rejection path failure

/-- The records of all sources between a verdict and a count. -/
def check (json : Bool) (results : List (String × Except Failure Dialogue)) : List String :=
  let failed := results.countP fun result => !result.2.isOk
  [if failed = 0 then "RESULT:OK" else "RESULT:ERROR"]
    ++ results.map (fun result => record json result.1 result.2)
    ++ [s!"CHECKED:{results.length}|FAILED:{failed}"]

end Parley.Report
