import Parley.Play.Session

namespace Parley

structure Scene where
  header : String
  message : String
  choices : List String
  deriving DecidableEq, Repr

/-- `scene` is missing when the dialogue has ended; `external` is what the last choice left. -/
structure Moment where
  title : String
  external : Option Directive
  scene : Option Scene
  deriving DecidableEq, Repr

namespace Scene

def ofBranch (branch : Branch) : Scene :=
  ⟨branch.header, branch.message, branch.responses.map Response.text⟩

end Scene

namespace Session

def describe (session : Session) (external : Option Directive) : Except Failure Moment :=
  if session.isFinished then
    .ok ⟨session.dialogue.title, external, none⟩
  else do
    let branch ← session.dialogue.activeBranch
    return ⟨session.dialogue.title, external, some (.ofBranch branch)⟩

end Session

end Parley
