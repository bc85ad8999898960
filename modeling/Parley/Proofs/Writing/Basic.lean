import Parley.Compile.Options
import Parley.Dialogue.Basic

/-! How a dialogue is written. A writing is a list of words with any blanks between them; a title may be
quoted or bare, and so may every argument of a command. -/

namespace Parley

/-- Commands that options let a source name. -/
def Command.Known (options : Options) : Command → Prop
  | host name => name ∈ options.hostCommands
  | _ => True

def Quotable (text : String) : Prop := '"' ∉ text.toList

instance (text : String) : Decidable (Quotable text) := inferInstanceAs (Decidable (_ ∉ _))

structure Response.WellFormed (options : Options) (response : Response) : Prop where
  spoken : response.text ≠ ""
  quotable : Quotable response.text
  known : ∀ directive ∈ response.directives, directive.command.Known options
  arguments : ∀ directive ∈ response.directives, Quotable directive.argument

structure Branch.WellFormed (options : Options) (branch : Branch) : Prop where
  named : branch.header ≠ ""
  unreserved : branch.header ≠ exitHeader
  header : Quotable branch.header
  message : Quotable branch.message
  answered : branch.responses ≠ []
  responses : ∀ response ∈ branch.responses, response.WellFormed options

/-- Dialogues that a source can spell, at their first branch. -/
structure Dialogue.WellFormed (options : Options) (dialogue : Dialogue) : Prop where
  visible : ∃ c ∈ dialogue.title.toList, Text.isBlank c = false
  title : Quotable dialogue.title
  branches : ∀ branch ∈ dialogue.branches, branch.WellFormed options
  active : dialogue.branches.head?.map Branch.header = some dialogue.active

def quote (text : String) : List Char := '"' :: (text.toList ++ ['"'])

/-- The words of a title. All of a title is text, so it is one word with its brackets. -/
inductive TitleWord (title : String) : List Char → Prop
  | quoted : TitleWord title ('[' :: (quote title ++ [']']))
  | bare (free : ∀ c ∈ title.toList, isDelimiter c = false) :
      TitleWord title ('[' :: (title.toList ++ [']']))

/-- The words of an argument. A bare one has no blanks around it that it could lose. -/
inductive ArgumentWord (argument : String) : List Char → Prop
  | quoted : ArgumentWord argument (quote argument)
  | bare (free : ∀ c ∈ argument.toList, isDelimiter c = false)
      (trimmed : Text.trim argument.toList = argument.toList) :
      ArgumentWord argument argument.toList

/-- A command is a name and the space that ends it, an argument and a semicolon. -/
inductive DirectiveWords : List Directive → List (List Char) → Prop
  | nil : DirectiveWords [] []
  | cons (argument : ArgumentWord directive.argument word) (later : DirectiveWords rest words) :
      DirectiveWords (directive :: rest)
        ((directive.command.name.toList ++ [' ']) :: word :: [';'] :: words)

inductive ResponseWords : List Response → List (List Char) → Prop
  | nil : ResponseWords [] []
  | cons (inside : DirectiveWords response.directives list) (later : ResponseWords rest words) :
      ResponseWords (response :: rest) (quote response.text :: ['('] :: (list ++ [')'] :: words))

inductive BranchWords : List Branch → List (List Char) → Prop
  | nil : BranchWords [] []
  | cons (inside : ResponseWords branch.responses list) (later : BranchWords rest words) :
      BranchWords (branch :: rest)
        (['{'] :: quote branch.header :: quote branch.message :: (list ++ ['}'] :: words))

/-- Blanks are all that stands around words. -/
inductive Laid : List (List Char) → List Char → Prop
  | nil (blank : ∀ c ∈ gap, Text.isBlank c = true) : Laid [] gap
  | cons (blank : ∀ c ∈ gap, Text.isBlank c = true) (later : Laid words rest) :
      Laid (word :: words) (gap ++ word ++ rest)

/-- A source that writes a dialogue in one of the admissible ways. -/
def Dialogue.Written (dialogue : Dialogue) (source : String) : Prop :=
  ∃ title words, TitleWord dialogue.title title ∧ BranchWords dialogue.branches words ∧
    Laid (title :: words) source.toList

end Parley
