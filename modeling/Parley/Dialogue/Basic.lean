import Parley.Dialogue.Command
import Parley.Failure
import Std.Data.TreeMap

namespace Parley

structure Response where
  text : String
  directives : List Directive
  deriving DecidableEq, Repr

structure Branch where
  header : String
  message : String
  responses : List Response
  deriving DecidableEq, Repr

namespace Response

/-- Pairs each command with the argument at its position. -/
def ofLists? (text : String) (commands : List Command) (arguments : List String) :
    Except Failure Response :=
  if commands.length = arguments.length then
    .ok ⟨text, List.zipWith Directive.mk commands arguments⟩
  else
    .error ⟨.draft (.unevenLists text commands.length arguments.length), none⟩

def commands (response : Response) : List Command := response.directives.map Directive.command

def arguments (response : Response) : List String := response.directives.map Directive.argument

end Response

/-- The active header of a dialogue that is over. No branch may be written under it. -/
def exitHeader : String := "__exit__"

/-- Positions by header, counted from `position`. The tail is entered first so that the first branch
of a header wins. -/
def indexFrom (position : Nat) : List Branch → Std.TreeMap String Nat
  | [] => ∅
  | branch :: rest => (indexFrom (position + 1) rest).insert branch.header position

/-- The index is kept beside the branches it was made from; only the active header ever moves. -/
structure Dialogue where
  title : String
  branches : List Branch
  active : String
  index : Std.TreeMap String Nat
  indexed : index = indexFrom 0 branches

namespace Dialogue

def ofBranches? (title : String) : List Branch → Except Failure Dialogue
  | [] => .error ⟨.draft (.noBranches title), none⟩
  | first :: rest => .ok ⟨title, first :: rest, first.header, indexFrom 0 (first :: rest), rfl⟩

/-- The active header is taken as it is; whether a branch carries it is asked when it matters. -/
def moveTo (dialogue : Dialogue) (header : String) : Dialogue := { dialogue with active := header }

def isOver (dialogue : Dialogue) : Bool := dialogue.active == exitHeader

def branch? (dialogue : Dialogue) (header : String) : Option Branch :=
  dialogue.index[header]?.bind fun position => dialogue.branches[position]?

def activeBranch (dialogue : Dialogue) : Except Failure Branch :=
  match dialogue.branch? dialogue.active with
  | some branch => .ok branch
  | none => .error ⟨.play (.lost dialogue.active dialogue.title), none⟩

end Dialogue

end Parley
