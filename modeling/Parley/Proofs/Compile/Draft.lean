import Parley.Compile.Builder

/-! The builder in a form that proofs can follow. A draft is at one place, and what it has at hand is what
that place asks for, so it has no branch, response or command that could be missing. -/

namespace Parley

/-- A command list under way; `counted` is how many commands it has to have. Finished parts of a draft
are kept last first. -/
structure ListDraft where
  response : String
  directives : List Directive
  counted : Nat
  deriving DecidableEq, Repr

/-- A branch under way; `counts` are those of the responses still to come. -/
structure BranchDraft where
  header : String
  message : String
  responses : List Response
  counts : List Nat
  deriving DecidableEq, Repr

/-- Where in the branches a draft is. `torn` says that a title closed for a second time in the middle
of a response, which nothing can complete any more until another response begins. -/
inductive Position
  | between (torn : Bool)
  | header (torn : Bool)
  | message (torn : Bool) (header : String)
  | responses (branch : BranchDraft)
  | commands (branch : BranchDraft) (list : ListDraft)
  | argument (branch : BranchDraft) (list : ListDraft) (command : Command)
  deriving DecidableEq, Repr

def Position.leavesTorn : Position → Bool
  | .between torn => torn
  | .header torn => torn
  | .message torn _ => torn
  | .responses branch => !branch.counts.isEmpty
  | .commands _ _ => true
  | .argument _ _ _ => true

/-- Before the title closes there is nothing to fill; `counts` are those of the branches not yet
finished, so the first row belongs to the branch at hand. -/
inductive Stage
  | title (opened : Bool)
  | body (title : String) (branches : List Branch) (counts : Counts) (position : Position)
  deriving DecidableEq, Repr

structure Draft where
  quoted : Bool
  buffer : Buffer
  stage : Stage
  deriving DecidableEq, Repr

namespace Draft

def start : Draft := ⟨false, .empty, .title false⟩

def openString (mark : Mark) (draft : Draft) : Except Failure Draft := do
  match draft.stage with
  | .body _ _ _ (.between _) | .body _ _ _ (.header _) | .body _ _ _ (.message _ _)
  | .body _ _ _ (.responses _) => refuseStray mark draft.buffer
  | _ => pure ()
  return { draft with quoted := true }

def closeString (mark : Mark) (draft : Draft) : Except Failure Draft :=
  match draft.stage with
  | .body _ _ _ (.between _) => refuse mark .stringOutside
  | .body title branches counts (.header torn) =>
    let header := draft.buffer.text
    if draft.buffer.isEmpty then refuse mark .emptyHeader
    else if header = exitHeader then refuse mark (.reservedHeader header)
    else .ok ⟨false, .empty, .body title branches counts (.message torn header)⟩
  | .body title branches counts (.message _ header) =>
    let branch := ⟨header, draft.buffer.text, [], counts.headD []⟩
    .ok ⟨false, .empty, .body title branches counts (.responses branch)⟩
  | .body _ _ _ (.argument _ _ _) => .ok { draft with quoted := false, buffer := draft.buffer.hold }
  | .title _ | .body _ _ _ (.responses _) | .body _ _ _ (.commands _ _) =>
    .ok { draft with quoted := false }

def openTitle (mark : Mark) (draft : Draft) : Except Failure Draft :=
  match draft.stage with
  | .title false => do
    refuseStray mark draft.buffer
    return { draft with stage := .title true }
  | _ => refuse mark .duplicateTitle

def closeTitle (mark : Mark) (counts : Counts) (draft : Draft) : Except Failure Draft :=
  if draft.buffer.chars.all Text.isBlank then
    refuse mark .blankTitle
  else
    let stage :=
      match draft.stage with
      | .title _ => .body draft.buffer.text [] counts (.between false)
      | .body _ branches left position =>
        .body draft.buffer.text branches left (.between position.leavesTorn)
    .ok { draft with buffer := .empty, stage }

def openBranch (mark : Mark) (draft : Draft) : Except Failure Draft :=
  match draft.stage with
  | .title _ => refuse mark .branchBeforeTitle
  | .body title branches counts position => do
    refuseStray mark draft.buffer
    match position, counts with
    | .between torn, _ :: _ =>
      return { draft with stage := .body title branches counts (.header torn) }
    | _, _ => refuse mark .moreBranches

def closeBranch (mark : Mark) (draft : Draft) : Except Failure Draft :=
  match draft.stage with
  | .body _ _ _ (.between _) | .body _ _ _ (.header _) => refuse mark .noHeader
  | .body _ _ _ (.message _ _) => refuse mark .noMessage
  | .title _ | .body _ _ _ (.commands _ _) | .body _ _ _ (.argument _ _ _) =>
    refuse mark .branchEndsInside
  | .body title branches counts (.responses branch) =>
    if !draft.buffer.isEmpty then refuse mark (.noCommandList draft.buffer.text)
    else if !branch.counts.isEmpty then refuse mark .fewerResponses
    else if branch.responses.isEmpty then refuse mark (.noResponses branch.header)
    else
      let finished := ⟨branch.header, branch.message, branch.responses.reverse⟩
      .ok { draft with stage := .body title (finished :: branches) counts.tail (.between false) }

def openList (mark : Mark) (draft : Draft) : Except Failure Draft :=
  match draft.stage with
  | .body _ _ _ (.between _) | .body _ _ _ (.header _) => refuse mark .noHeader
  | .body _ _ _ (.message _ _) => refuse mark .noMessage
  | .title _ | .body _ _ _ (.commands _ _) | .body _ _ _ (.argument _ _ _) =>
    refuse mark .listOpensInside
  | .body title branches counts (.responses branch) =>
    match branch.counts with
    | [] => refuse mark .moreResponses
    | counted :: later =>
      if draft.buffer.isEmpty then refuse mark .noResponse
      else
        let position :=
          .commands { branch with counts := later } ⟨draft.buffer.text, [], counted⟩
        .ok { draft with buffer := .empty, stage := .body title branches counts position }

def readPlain (options : Options) (mark : Mark) (draft : Draft) : Except Failure Draft :=
  match draft.stage with
  | .body title branches counts (.commands branch list) =>
    if Text.isBlank mark.char && draft.buffer.isEmpty then .ok draft
    else if mark.char = ' ' then
      match options.command? draft.buffer.text with
      | none => refuse mark (.unknownCommand draft.buffer.text)
      | some command =>
        let position := .argument branch list command
        .ok { draft with buffer := .empty, stage := .body title branches counts position }
    else .ok { draft with buffer := draft.buffer.push mark.char }
  | .body _ _ _ (.argument _ _ _) =>
    if Text.isBlank mark.char && draft.buffer.isEmpty then .ok draft
    else .ok { draft with buffer := draft.buffer.push mark.char }
  | _ => .ok { draft with buffer := draft.buffer.push mark.char }

def endCommand (mark : Mark) (draft : Draft) : Except Failure Draft :=
  match draft.stage with
  | .body title branches counts (.argument branch list command) =>
    if list.directives.length = list.counted then
      .error ⟨.draft (.overfull .commands list.counted), none⟩
    else
      let directives := ⟨command, draft.buffer.trimmed⟩ :: list.directives
      let position := .commands branch { list with directives }
      .ok { draft with buffer := .empty, stage := .body title branches counts position }
  | _ => refuse mark (.unseparated draft.buffer.text)

def closeList (mark : Mark) (draft : Draft) : Except Failure Draft :=
  match draft.stage with
  | .body title branches counts (.commands branch list) =>
    if !draft.buffer.isEmpty then refuse mark (.unseparated draft.buffer.text)
    else if list.directives.length ≠ list.counted then
      .error ⟨.draft (.underfull .commands list.counted list.directives.length), none⟩
    else
      let responses := ⟨list.response, list.directives.reverse⟩ :: branch.responses
      let position := .responses { branch with responses }
      .ok { draft with stage := .body title branches counts position }
  | .body _ _ _ (.argument _ _ _) => refuse mark .unterminatedCommand
  | _ => refuse mark .listClosesInside

def read (options : Options) (counts : Counts) (draft : Draft) (mark : Mark) :
    Except Failure Draft :=
  if mark.char = '"' then
    if draft.quoted then draft.closeString mark else draft.openString mark
  else if draft.quoted then
    .ok { draft with buffer := draft.buffer.push mark.char }
  else
    match mark.char with
    | '[' => draft.openTitle mark
    | ']' => draft.closeTitle mark counts
    | '{' => draft.openBranch mark
    | '}' => draft.closeBranch mark
    | '(' => draft.openList mark
    | ')' => draft.closeList mark
    | ';' => draft.endCommand mark
    | _ => draft.readPlain options mark

def finish (draft : Draft) : Except Failure Dialogue :=
  match draft.stage with
  | .title _ => .error ⟨.draft .noTitle, none⟩
  | .body title branches counts position =>
    if !draft.buffer.isEmpty then
      .error ⟨.draft (.trailingText draft.buffer.text), none⟩
    else if position ≠ .between false then
      .error ⟨.draft .unterminatedBranch, none⟩
    else if !counts.isEmpty then
      let counted := branches.length + counts.length
      .error ⟨.draft (.underfull .branches counted branches.length), none⟩
    else
      Dialogue.ofBranches? title branches.reverse

def build (options : Options) (counts : Counts) (marks : List Mark) : Except Failure Dialogue := do
  let draft ← marks.foldlM (read options counts) start
  draft.finish

end Draft

end Parley
