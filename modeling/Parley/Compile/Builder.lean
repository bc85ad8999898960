import Parley.Compile.Options
import Parley.Compile.Slots
import Parley.Dialogue.Basic
import Parley.Source.Sections

/-! The builder of a dialogue, one character at a time from a text without layout. The counts say in
advance how many branches, responses and commands there are; a text that does not fill them exactly is
refused. -/

namespace Parley

/-- Text read since the last delimiter that used it, last character first. What a string put into a
command argument is `held`, and the trimming of the argument does not reach it. -/
structure Buffer where
  loose : List Char
  held : List Char
  deriving DecidableEq, Repr

namespace Buffer

def empty : Buffer := ⟨[], []⟩

def isEmpty (buffer : Buffer) : Bool := buffer.loose.isEmpty && buffer.held.isEmpty

def push (buffer : Buffer) (c : Char) : Buffer := { buffer with loose := c :: buffer.loose }

def hold (buffer : Buffer) : Buffer := ⟨[], buffer.loose ++ buffer.held⟩

def chars (buffer : Buffer) : List Char := (buffer.loose ++ buffer.held).reverse

def text (buffer : Buffer) : String := String.ofList buffer.chars

def trimmed (buffer : Buffer) : String :=
  String.ofList (buffer.loose.dropWhile Text.isBlank ++ buffer.held).reverse

end Buffer

inductive Mode
  | title
  | header
  | message
  | response
  | command
  | argument
  deriving DecidableEq, Repr

structure PendingBranch where
  opened : Bool
  header : Option String
  message : Option String
  responses : Slots Response
  deriving DecidableEq, Repr

structure PendingResponse where
  text : Option String
  command : Option Command
  commands : Slots Command
  arguments : Slots String
  deriving DecidableEq, Repr

/-- The mode says what is read next; whether there is a branch, a response or a command to put it in is
kept apart from it. -/
structure Builder where
  mode : Mode
  quoted : Bool
  buffer : Buffer
  titleOpen : Bool
  title : Option String
  branches : Slots Branch
  branch : Option PendingBranch
  response : Option PendingResponse
  deriving DecidableEq, Repr

def refuse (mark : Mark) (fault : DraftFault) : Except Failure α :=
  .error ⟨.draft fault, some mark⟩

def refuseStray (mark : Mark) (buffer : Buffer) : Except Failure Unit :=
  if buffer.isEmpty then .ok () else refuse mark (.strayText buffer.text)

def PendingBranch.sized (responses : Nat) : PendingBranch :=
  ⟨false, none, none, .sized .responses responses⟩

def PendingBranch.complete (mark : Mark) (branch : PendingBranch) : Except Failure Branch :=
  match branch.header, branch.message with
  | some header, some message =>
    if branch.responses.items.isEmpty then refuse mark (.noResponses header)
    else do
      let responses ← branch.responses.finish
      return ⟨header, message, responses⟩
  | _, _ => refuse mark .incompleteBranch

def PendingResponse.sized (commands : Nat) : PendingResponse :=
  ⟨none, none, .sized .commands commands, .sized .arguments commands⟩

def PendingResponse.endCommand (mark : Mark) (argument : String) (response : PendingResponse) :
    Except Failure PendingResponse :=
  match response.command with
  | none => refuse mark .noCommandBegun
  | some command => do
    let commands ← response.commands.push command
    let arguments ← response.arguments.push argument
    return { response with command := none, commands, arguments }

def PendingResponse.complete (mark : Mark) (response : PendingResponse) : Except Failure Response :=
  match response.text with
  | none => refuse mark .incompleteResponse
  | some text => do
    let commands ← response.commands.finish
    let arguments ← response.arguments.finish
    Response.ofLists? text commands arguments

namespace Builder

def start (counts : Counts) : Builder :=
  ⟨.title, false, .empty, false, none, .sized .branches counts.branches, none, none⟩

def allocateBranch (mark : Mark) (counts : Counts) (builder : Builder) : Except Failure Builder :=
  if builder.branches.remaining = 0 then
    .ok { builder with branch := none }
  else
    let place := builder.branches.items.length
    match counts.lists? place with
    | none => refuse mark (.uncountedBranch place)
    | some responses => .ok { builder with branch := some (.sized responses) }

def allocateResponse (mark : Mark) (counts : Counts) (builder : Builder) : Except Failure Builder :=
  match builder.branch with
  | none => refuse mark .noBranchBegun
  | some branch =>
    if branch.responses.remaining = 0 then
      .ok { builder with response := none }
    else
      let place := builder.branches.items.length
      let inside := branch.responses.items.length
      match counts.commands? place inside with
      | none => refuse mark (.uncountedResponse place inside)
      | some commands => .ok { builder with response := some (.sized commands) }

/-- Headers, messages and responses are whole strings: nothing may stand before their quote. -/
def openString (mark : Mark) (builder : Builder) : Except Failure Builder := do
  match builder.mode with
  | .header | .message | .response => refuseStray mark builder.buffer
  | .title | .command | .argument => pure ()
  return { builder with quoted := true }

def closeString (mark : Mark) (counts : Counts) (builder : Builder) : Except Failure Builder :=
  match builder.mode with
  | .header =>
    let header := builder.buffer.text
    if !builder.branch.any PendingBranch.opened then refuse mark .stringOutside
    else if builder.buffer.isEmpty then refuse mark .emptyHeader
    else if header = exitHeader then refuse mark (.reservedHeader header)
    else
      let branch := builder.branch.map fun branch => { branch with header := some header }
      .ok { builder with mode := .message, quoted := false, buffer := .empty, branch }
  | .message =>
    let message := builder.buffer.text
    let branch := builder.branch.map fun branch => { branch with message := some message }
    { builder with mode := .response, quoted := false, buffer := .empty, branch }.allocateResponse mark
      counts
  | .argument => .ok { builder with quoted := false, buffer := builder.buffer.hold }
  | .title | .response | .command => .ok { builder with quoted := false }

def openTitle (mark : Mark) (builder : Builder) : Except Failure Builder :=
  if builder.title.isSome || builder.titleOpen then
    refuse mark .duplicateTitle
  else do
    refuseStray mark builder.buffer
    return { builder with titleOpen := true, mode := .title }

/-- A closer without an opener still ends a title, and starts the branch at hand over. -/
def closeTitle (mark : Mark) (counts : Counts) (builder : Builder) : Except Failure Builder :=
  if builder.buffer.chars.all Text.isBlank then
    refuse mark .blankTitle
  else
    let title := some builder.buffer.text
    { builder with mode := .header, buffer := .empty, titleOpen := false, title }.allocateBranch mark
      counts

def openBranch (mark : Mark) (builder : Builder) : Except Failure Builder :=
  match builder.title with
  | none => refuse mark .branchBeforeTitle
  | some _ => do
    refuseStray mark builder.buffer
    match builder.branch with
    | some branch =>
      if branch.opened then refuse mark .moreBranches
      else return { builder with mode := .header, branch := some { branch with opened := true } }
    | none => refuse mark .moreBranches

def closeBranch (mark : Mark) (counts : Counts) (builder : Builder) : Except Failure Builder :=
  match builder.mode with
  | .header => refuse mark .noHeader
  | .message => refuse mark .noMessage
  | .title | .command | .argument => refuse mark .branchEndsInside
  | .response =>
    if !builder.buffer.isEmpty then refuse mark (.noCommandList builder.buffer.text)
    else if builder.response.isSome then refuse mark .fewerResponses
    else
      match builder.branch with
      | none => refuse mark .noBranchBegun
      | some branch => do
        let finished ← branch.complete mark
        let branches ← builder.branches.push finished
        { builder with mode := .header, branches, branch := none }.allocateBranch mark counts

def openList (mark : Mark) (builder : Builder) : Except Failure Builder :=
  match builder.mode with
  | .header => refuse mark .noHeader
  | .message => refuse mark .noMessage
  | .title | .command | .argument => refuse mark .listOpensInside
  | .response =>
    match builder.response with
    | none => refuse mark .moreResponses
    | some response =>
      if builder.buffer.isEmpty then refuse mark .noResponse
      else
        let response := some { response with text := some builder.buffer.text }
        .ok { builder with mode := .command, buffer := .empty, response }

/-- A space ends a command name. -/
def separateArgument (options : Options) (mark : Mark) (builder : Builder) : Except Failure Builder :=
  if builder.buffer.isEmpty then
    .ok builder
  else
    match options.command? builder.buffer.text with
    | none => refuse mark (.unknownCommand builder.buffer.text)
    | some command =>
      let response := builder.response.map fun response => { response with command := some command }
      .ok { builder with mode := .argument, buffer := .empty, response }

/-- A character that is no delimiter. Blanks before a name or an argument are layout; within a name all
but the space are part of it. -/
def readPlain (options : Options) (mark : Mark) (builder : Builder) : Except Failure Builder :=
  if mark.char = ' ' ∧ builder.mode = .command then
    builder.separateArgument options mark
  else if Text.isBlank mark.char ∧ builder.buffer.isEmpty ∧
      (builder.mode = .command ∨ builder.mode = .argument) then
    .ok builder
  else
    .ok { builder with buffer := builder.buffer.push mark.char }

def endCommand (mark : Mark) (builder : Builder) : Except Failure Builder :=
  if builder.mode ≠ .argument then
    refuse mark (.unseparated builder.buffer.text)
  else
    match builder.response with
    | none => refuse mark .noResponseBegun
    | some response => do
      let response ← response.endCommand mark builder.buffer.trimmed
      return { builder with mode := .command, buffer := .empty, response := some response }

def closeList (mark : Mark) (counts : Counts) (builder : Builder) : Except Failure Builder :=
  match builder.mode with
  | .argument => refuse mark .unterminatedCommand
  | .title | .header | .message | .response => refuse mark .listClosesInside
  | .command =>
    if !builder.buffer.isEmpty then refuse mark (.unseparated builder.buffer.text)
    else
      match builder.response with
      | none => refuse mark .noResponseBegun
      | some response => do
        let finished ← response.complete mark
        match builder.branch with
        | none => refuse mark .noBranchBegun
        | some branch =>
          let responses ← branch.responses.push finished
          let branch := some { branch with responses }
          { builder with mode := .response, branch, response := none }.allocateResponse mark counts

/-- Reads one character; `counts` are those of the whole text. -/
def read (options : Options) (counts : Counts) (builder : Builder) (mark : Mark) :
    Except Failure Builder :=
  if mark.char = '"' then
    if builder.quoted then builder.closeString mark counts else builder.openString mark
  else if builder.quoted then
    .ok { builder with buffer := builder.buffer.push mark.char }
  else
    match mark.char with
    | '[' => builder.openTitle mark
    | ']' => builder.closeTitle mark counts
    | '{' => builder.openBranch mark
    | '}' => builder.closeBranch mark counts
    | '(' => builder.openList mark
    | ')' => builder.closeList mark counts
    | ';' => builder.endCommand mark
    | _ => builder.readPlain options mark

def finish (builder : Builder) : Except Failure Dialogue :=
  match builder.title with
  | none => .error ⟨.draft .noTitle, none⟩
  | some title =>
    if !builder.buffer.isEmpty then
      .error ⟨.draft (.trailingText builder.buffer.text), none⟩
    else if builder.branch.any PendingBranch.opened || builder.response.isSome then
      .error ⟨.draft .unterminatedBranch, none⟩
    else do
      let branches ← builder.branches.finish
      Dialogue.ofBranches? title branches

end Builder

/-- Builds the dialogue that a text spells, filling the given counts. -/
def build (options : Options) (counts : Counts) (marks : List Mark) : Except Failure Dialogue := do
  let builder ← marks.foldlM (Builder.read options counts) (Builder.start counts)
  builder.finish

end Parley
