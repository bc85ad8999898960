import Parley.Source.Mark

/-! Everything that can go wrong, as causes. The code and the wording of a cause are decided here and
nowhere else; the stages only say which cause applies. -/

namespace Parley

inductive SyntaxFault
  | reopened (opener : Char)
  | misplaced (opener : Char)
  | strayCloser (closer : Char)
  | straySeparator
  | openString
  | unclosed (opener : Char)
  deriving DecidableEq, Repr

inductive CountFault
  | strayList
  | strayCommand
  deriving DecidableEq, Repr

inductive Part
  | branches
  | responses
  | commands
  | arguments
  deriving DecidableEq, Repr

inductive DraftFault
  | strayText (text : String)
  | stringOutside
  | trailingText (text : String)
  | duplicateTitle
  | blankTitle
  | branchBeforeTitle
  | noTitle
  | noHeader
  | emptyHeader
  | reservedHeader (header : String)
  | noMessage
  | noResponse
  | noCommandList (response : String)
  | noResponses (header : String)
  | noBranches (title : String)
  | unknownCommand (name : String)
  | unseparated (text : String)
  | unterminatedCommand
  | unterminatedBranch
  | branchEndsInside
  | listOpensInside
  | listClosesInside
  | moreBranches
  | moreResponses
  | fewerResponses
  | overfull (part : Part) (counted : Nat)
  | underfull (part : Part) (counted filled : Nat)
  | uncountedBranch (branch : Nat)
  | uncountedResponse (branch response : Nat)
  | noBranchBegun
  | noResponseBegun
  | noCommandBegun
  | incompleteBranch
  | incompleteResponse
  | unevenLists (response : String) (commands arguments : Nat)
  deriving DecidableEq, Repr

inductive NameFault
  | shadowing (name : String)
  | unwritable (name : String)
  deriving DecidableEq, Repr

/-- Headers that do not identify exactly one branch. -/
inductive ReferenceFault
  | duplicate (header : String)
  | dangling (response header target : String)
  deriving DecidableEq, Repr

inductive PlayFault
  | lost (active title : String)
  | ended (title : String)
  | outOfRange (index : Nat) (header : String) (responses : Nat)
  | speechless (header : String)
  | unknownBranch (title header : String)
  deriving DecidableEq, Repr

inductive FileFault
  | missing
  | taken
  | notFolder
  | isFolder
  | notText
  deriving DecidableEq, Repr

/-- Failures of the player's commands, each about one file. -/
inductive CommandFault
  | sourceUnresolved (fault : FileFault)
  | sourceMissing (path : String)
  | sourceNotFile (path : String)
  | sourceUnreadable (fault : FileFault)
  | sourceUnopened (path : String) (fault : FileFault)
  | sourceUnscanned (path : String) (fault : FileFault)
  | noSources (root : String)
  | saveUnwritable (fault : FileFault)
  | saveMissing (path : String)
  | saveUnreadable (fault : FileFault)
  | saveMalformed
  | saveForeign (schema : String)
  | saveOfOther (expected actual : String)
  | terminal (fault : FileFault)
  deriving DecidableEq, Repr

inductive Cause
  | syntactic (fault : SyntaxFault)
  | count (fault : CountFault)
  | draft (fault : DraftFault)
  | name (fault : NameFault)
  | reference (fault : ReferenceFault)
  | play (fault : PlayFault)
  | command (fault : CommandFault)
  | raised (code message : String)
  deriving DecidableEq, Repr

/-- A cause, and the source character it was noticed at when there is one. -/
structure Failure where
  cause : Cause
  mark : Option Mark := none
  deriving DecidableEq, Repr

namespace SyntaxFault

def code : SyntaxFault → String
  | reopened _ => "QDL_SYNTAX_NESTED"
  | misplaced _ | straySeparator => "QDL_SYNTAX_UNEXPECTED"
  | strayCloser _ => "QDL_SYNTAX_UNBALANCED"
  | openString | unclosed _ => "QDL_SYNTAX_UNTERMINATED"

def message : SyntaxFault → String
  | reopened opener => s!"'{opener}' opened again before closing."
  | misplaced opener => s!"'{opener}' is not allowed here."
  | strayCloser closer => s!"'{closer}' does not close an open delimiter."
  | straySeparator => "';' outside of a command list."
  | openString => "String never closes."
  | unclosed opener => s!"'{opener}' is never closed."

end SyntaxFault

namespace CountFault

def message : CountFault → String
  | strayList => "')' appears after the last branch closes."
  | strayCommand => "';' appears after the last branch closes."

end CountFault

def Part.word : Part → String
  | branches => "branches"
  | responses => "objects"
  | commands => "commands"
  | arguments => "arguments"

namespace DraftFault

def code : DraftFault → String
  | strayText _ | stringOutside | trailingText _ => "QDL_BUILD_STRAY_TEXT"
  | duplicateTitle => "QDL_BUILD_DUPLICATE_TITLE"
  | blankTitle | branchBeforeTitle | noTitle => "QDL_BUILD_MISSING_TITLE"
  | noHeader | emptyHeader | incompleteBranch => "QDL_BUILD_MISSING_HEADER"
  | reservedHeader _ => "QDL_BUILD_RESERVED_HEADER"
  | noMessage => "QDL_BUILD_MISSING_MESSAGE"
  | noResponse | incompleteResponse => "QDL_BUILD_MISSING_RESPONSE"
  | noCommandList _ => "QDL_BUILD_MISSING_COMMAND_LIST"
  | noResponses _ => "QDL_BUILD_EMPTY_OBJECT_LIST"
  | noBranches _ => "QDL_BUILD_NO_BRANCHES"
  | unknownCommand _ => "QDL_BUILD_UNKNOWN_COMMAND"
  | unseparated _ => "QDL_BUILD_UNRECOGNIZED_TOKEN"
  | unterminatedCommand => "QDL_BUILD_UNTERMINATED_COMMAND"
  | unterminatedBranch => "QDL_BUILD_UNTERMINATED"
  | branchEndsInside | listOpensInside | listClosesInside => "QDL_BUILD_UNEXPECTED"
  | moreBranches | moreResponses | fewerResponses | overfull _ _ | underfull _ _ _
  | uncountedBranch _ | uncountedResponse _ _ => "QDL_BUILD_CAPACITY"
  | noBranchBegun => "QDL_BUILD_NO_BRANCH"
  | noResponseBegun | noCommandBegun => "QDL_BUILD_NO_OBJECT"
  | unevenLists _ _ _ => "QDL_BUILD_COMMAND_ARG_MISMATCH"

def message : DraftFault → String
  | strayText text => s!"Text \"{text}\" is not quoted."
  | stringOutside => "String appears outside of a branch."
  | trailingText text => s!"Trailing text \"{text}\" after the last branch."
  | duplicateTitle => "Dialogue already has a title."
  | blankTitle => "Dialogue title is empty."
  | branchBeforeTitle => "Branch starts before the dialogue title."
  | noTitle => "Dialogue has no [title]."
  | noHeader => "Branch has no header."
  | emptyHeader => "Branch header is empty."
  | reservedHeader header => s!"Header \"{header}\" is reserved for ending a dialogue."
  | noMessage => "Branch has no message."
  | noResponse => "Command list has no response line before it."
  | noCommandList response => s!"Response \"{response}\" has no command list."
  | noResponses header => s!"Branch \"{header}\" offers no responses."
  | noBranches title => s!"Dialogue \"{title}\" has no branches."
  | unknownCommand name => s!"Unknown command \"{name}\"."
  | unseparated text =>
    s!"Expected \"<command> <argument>;\", found \"{text}\" with no argument separator."
  | unterminatedCommand => "Command is missing its closing ';'."
  | unterminatedBranch => "Input ends inside a branch."
  | branchEndsInside => "Branch closes mid-structure."
  | listOpensInside => "Command list opens mid-structure."
  | listClosesInside => "Command list closes mid-structure."
  | moreBranches => "More branches than counted."
  | moreResponses => "More objects than counted."
  | fewerResponses => "Fewer objects than counted."
  | overfull part counted => s!"More {part.word} than counted ({counted})."
  | underfull part counted filled => s!"Counted {counted} {part.word} but filled {filled}."
  | uncountedBranch branch => s!"No object count for branch {branch}."
  | uncountedResponse branch response => s!"No command count for branch {branch} object {response}."
  | noBranchBegun => "No branch is being built."
  | noResponseBegun => "No object is being built."
  | noCommandBegun => "Argument without a command."
  | incompleteBranch => "Branch is incomplete."
  | incompleteResponse => "Object has no response."
  | unevenLists response commands arguments =>
    s!"Response \"{response}\" has {commands} commands but {arguments} arguments."

end DraftFault

namespace NameFault

def code : NameFault → String
  | shadowing _ => "QDL_CONFIG_RESERVED_COMMAND"
  | unwritable _ => "QDL_CONFIG_INVALID_COMMAND"

def message : NameFault → String
  | shadowing name => s!"Host command \"{name}\" shadows a builtin command."
  | unwritable name => s!"Host command \"{name}\" cannot be written in QDL."

end NameFault

namespace ReferenceFault

def code : ReferenceFault → String
  | duplicate _ => "QDL_REF_DUPLICATE_HEADER"
  | dangling _ _ _ => "QDL_REF_DANGLING_GOTO"

def message : ReferenceFault → String
  | duplicate header => s!"Header \"{header}\" is used by more than one branch."
  | dangling response header target =>
    s!"Response \"{response}\" in branch \"{header}\" goes to unknown header \"{target}\"."

end ReferenceFault

namespace PlayFault

def code : PlayFault → String
  | lost _ _ | unknownBranch _ _ => "QDL_RUNTIME_BRANCH_NOT_FOUND"
  | ended _ => "QDL_RUNTIME_DIALOGUE_ENDED"
  | outOfRange _ _ _ => "QDL_RUNTIME_OBJECT_INDEX"
  | speechless _ => "QDL_RUNTIME_NO_CHOICES"

def message : PlayFault → String
  | lost active title => s!"Active header \"{active}\" does not name a branch in \"{title}\"."
  | ended title => s!"Dialogue \"{title}\" has already ended."
  | outOfRange index header responses =>
    s!"Choice {index} is out of range for branch \"{header}\" ({responses} responses)."
  | speechless header => s!"Branch \"{header}\" has no responses to choose from."
  | unknownBranch title header => s!"Cannot resume \"{title}\" at unknown branch \"{header}\"."

end PlayFault

namespace FileFault

def message : FileFault → String
  | missing => "No such file or directory (os error 2)"
  | taken => "File exists (os error 17)"
  | notFolder => "Not a directory (os error 20)"
  | isFolder => "Is a directory (os error 21)"
  | notText => "stream did not contain valid UTF-8"

end FileFault

namespace CommandFault

def code : CommandFault → String
  | sourceUnresolved _ => "CLI_SOURCE_PATH"
  | sourceMissing _ => "CLI_SOURCE_NOT_FOUND"
  | sourceNotFile _ => "CLI_SOURCE_NOT_FILE"
  | sourceUnreadable _ => "CLI_SOURCE_READ"
  | sourceUnopened _ _ => "API_SOURCE_READ"
  | sourceUnscanned _ _ => "CLI_SOURCE_SCAN"
  | noSources _ => "CLI_SOURCE_EMPTY"
  | saveUnwritable _ => "CLI_STATE_WRITE"
  | saveMissing _ => "CLI_STATE_NOT_FOUND"
  | saveUnreadable _ => "CLI_STATE_READ"
  | saveMalformed => "CLI_STATE_INVALID"
  | saveForeign _ => "CLI_STATE_SCHEMA"
  | saveOfOther _ _ => "TUI_STATE_SOURCE_MISMATCH"
  | terminal _ => "TUI_IO"

def message : CommandFault → String
  | sourceUnresolved fault | sourceUnreadable fault | saveUnwritable fault | saveUnreadable fault
  | terminal fault => fault.message
  | sourceMissing path => s!"source does not exist: {path}"
  | sourceNotFile path => s!"source is not a file: {path}"
  | sourceUnopened path fault => s!"Failed to read dialogue \"{path}\": {fault.message}"
  | sourceUnscanned path fault => s!"IO error for operation on {path}: {fault.message}"
  | noSources root => s!"No .qdl files under {root}"
  | saveMissing path => s!"State file does not exist: {path}"
  | saveMalformed => "The state file does not hold a player state."
  | saveForeign schema => s!"Unsupported player state schema: {schema}"
  | saveOfOther expected actual =>
    s!"State source mismatch. expected={expected} actual={actual}"

end CommandFault

namespace Cause

def code : Cause → String
  | syntactic fault => fault.code
  | count _ => "QDL_COUNT_OUT_OF_BOUNDS"
  | draft fault => fault.code
  | name fault => fault.code
  | reference fault => fault.code
  | play fault => fault.code
  | command fault => fault.code
  | raised code _ => code

def message : Cause → String
  | syntactic fault => fault.message
  | count fault => fault.message
  | draft fault => fault.message
  | name fault => fault.message
  | reference fault => fault.message
  | play fault => fault.message
  | command fault => fault.message
  | raised _ message => message

end Cause

namespace Failure

def code (failure : Failure) : String := failure.cause.code

def message (failure : Failure) : String := failure.cause.message

/-- The line a log or a terminal shows. -/
def display (failure : Failure) : String := failure.code ++ ": " ++ failure.message

end Failure

end Parley
