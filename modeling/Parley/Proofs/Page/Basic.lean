import Mathlib.Data.List.DropRight
import Parley.Compile.Options
import Parley.Dialogue.Basic
import Parley.Proofs.Page.Token

/-! Pages: the texts that spell a dialogue, taken apart. Everything that a compiler may ask of a page is a
field of one of these structures, so there is no page that spells nothing. A start is the part of a page
that stands before the place where more of the same may follow. -/

namespace Parley

variable {options : Options}

/-- An argument loses the layout around it. A string ends what the trimming reaches. -/
def argumentText (pieces : List Piece) : List Char :=
  contents ((voiced pieces).rdropWhile Piece.isGap)

/-- A name that no space interrupts. -/
structure CommandStart (options : Options) where
  name : List Piece
  command : Command
  begun : voiced name ≠ []
  unbroken : .space ∉ voiced name
  known : options.command? (String.ofList (contents (voiced name))) = some command

def CommandStart.tokens (start : CommandStart options) : List Token :=
  start.name.map .piece ++ [.piece .space]

structure CommandPage (options : Options) extends CommandStart options where
  argument : List Piece

namespace CommandPage

def tokens (page : CommandPage options) : List Token :=
  page.toCommandStart.tokens ++ page.argument.map .piece ++ [.ends]

def directive (page : CommandPage options) : Directive :=
  ⟨page.command, String.ofList (argumentText page.argument)⟩

theorem tokens_eq (page : CommandPage options) :
    page.tokens = (page.name ++ .space :: page.argument).map .piece ++ [.ends] := by
  simp [tokens, CommandStart.tokens]

theorem inside (page : CommandPage options) : ∀ token ∈ page.tokens, token.isInside = true := by
  rw [tokens_eq]
  intro token member
  rcases List.mem_append.mp member with piece | ends
  · obtain ⟨part, _, rfl⟩ := List.mem_map.mp piece
    rfl
  · rw [List.mem_singleton.mp ends]
    rfl

end CommandPage

/-- Strings may only stand where the line is still empty: each piece before one adds nothing. -/
def Leading (line : List Piece) : Prop :=
  ∀ front content closed back, line = front ++ .quoted content closed :: back → contents front = []

theorem leading_nil : Leading [] := by simp [Leading]

theorem leading_of_mute {line : List Piece} (mute : contents line = []) : Leading line := by
  rintro front content closed back rfl
  rw [contents_append] at mute
  exact (List.append_eq_nil_iff.mp mute).1

/-- A line may always go on with a character, and with a string while it is empty. -/
theorem Leading.snoc {line : List Piece} (leading : Leading line) {last : Piece}
    (allowed : last.isPlain = true ∨ contents line = []) : Leading (line ++ [last]) := by
  intro front content closed back same
  rcases List.eq_nil_or_concat' back with rfl | ⟨more, other, rfl⟩
  · obtain ⟨rfl, ends⟩ := List.append_inj' same rfl
    obtain rfl := List.singleton_inj.mp ends
    exact allowed.resolve_left (by simp [Piece.isPlain])
  · have grouped : line ++ [last] = (front ++ .quoted content closed :: more) ++ [other] := by
      simpa using same
    exact leading front content closed more (List.append_inj' grouped rfl).1

/-- A line that says something, and commands. -/
structure ResponseStart (options : Options) where
  line : List Piece
  commands : List (CommandPage options)
  leading : Leading line
  spoken : contents line ≠ []

namespace ResponseStart

def tokens (start : ResponseStart options) : List Token :=
  start.line.map .piece ++ .opens .commands :: start.commands.flatMap CommandPage.tokens

def response (start : ResponseStart options) : Response :=
  ⟨String.ofList (contents start.line), start.commands.map CommandPage.directive⟩

end ResponseStart

/-- What stands behind the last command begins nothing. -/
structure ResponsePage (options : Options) extends ResponseStart options where
  trailing : List Piece
  silent : voiced trailing = []

namespace ResponsePage

def tokens (page : ResponsePage options) : List Token :=
  page.toResponseStart.tokens ++ page.trailing.map .piece ++ [.closes .commands]

def list (page : ResponsePage options) : List Token :=
  page.commands.flatMap CommandPage.tokens ++ page.trailing.map .piece

theorem tokens_eq (page : ResponsePage options) :
    page.tokens ++ rest = page.line.map .piece ++ .opens .commands ::
      (page.commands.flatMap CommandPage.tokens ++
        (page.trailing.map .piece ++ .closes .commands :: rest)) := by
  simp [tokens, ResponseStart.tokens]

theorem inside (page : ResponsePage options) : ∀ token ∈ page.list, token.isInside = true := by
  intro token member
  rcases List.mem_append.mp member with command | piece
  · obtain ⟨command, _, within⟩ := List.mem_flatMap.mp command
    exact command.inside token within
  · obtain ⟨part, _, rfl⟩ := List.mem_map.mp piece
    rfl

end ResponsePage

/-- A header and a message, both one string, and responses. -/
structure BranchStart (options : Options) where
  header : List Char
  message : List Char
  responses : List (ResponsePage options)
  headerClosed : '"' ∉ header
  messageClosed : '"' ∉ message
  named : header ≠ []
  unreserved : String.ofList header ≠ exitHeader

namespace BranchStart

def tokens (start : BranchStart options) : List Token :=
  .opens .branch :: .piece (.quoted start.header start.headerClosed) ::
    .piece (.quoted start.message start.messageClosed) :: start.responses.flatMap ResponsePage.tokens

def branch (start : BranchStart options) : Branch :=
  ⟨String.ofList start.header, String.ofList start.message,
    start.responses.map fun page => page.response⟩

end BranchStart

/-- What stands behind the last response adds nothing. -/
structure BranchPage (options : Options) extends BranchStart options where
  closing : List Piece
  answered : responses ≠ []
  mute : contents closing = []

namespace BranchPage

def tokens (page : BranchPage options) : List Token :=
  page.toBranchStart.tokens ++ page.closing.map .piece ++ [.closes .branch]

theorem tokens_eq (page : BranchPage options) :
    page.tokens ++ rest = .opens .branch :: .piece (.quoted page.header page.headerClosed) ::
      .piece (.quoted page.message page.messageClosed) ::
        (page.responses.flatMap ResponsePage.tokens ++
          (page.closing.map .piece ++ .closes .branch :: rest)) := by
  simp [tokens, BranchStart.tokens]

end BranchPage

/-- A title in brackets and branches. What stands before the title adds nothing. -/
structure PageStart (options : Options) where
  front : List Piece
  title : List Piece
  branches : List (BranchPage options)
  mute : contents front = []
  visible : ∃ c ∈ contents title, Text.isBlank c = false

def PageStart.tokens (start : PageStart options) : List Token :=
  start.front.map .piece ++ .opens .title :: start.title.map .piece ++ .closes .title ::
    start.branches.flatMap BranchPage.tokens

structure Page (options : Options) extends PageStart options where
  inhabited : branches ≠ []

namespace Page

theorem tokens_eq (page : Page options) :
    page.tokens = page.front.map .piece ++ .opens .title :: (page.title.map .piece ++ .closes .title ::
      page.branches.flatMap BranchPage.tokens) := by
  simp [PageStart.tokens]

def text (page : Page options) : List Char := spell page.tokens

def dialogue (page : Page options) : Dialogue where
  title := String.ofList (contents page.title)
  branches := page.branches.map fun branch => branch.branch
  active := (page.branches.head page.inhabited).branch.header
  index := indexFrom 0 (page.branches.map fun branch => branch.branch)
  indexed := rfl

theorem ofBranches?_dialogue (page : Page options) :
    Dialogue.ofBranches? (String.ofList (contents page.title))
      (page.branches.map fun branch => branch.branch) = .ok page.dialogue := by
  obtain ⟨⟨front, title, branches, mute, visible⟩, inhabited⟩ := page
  cases branches with
  | nil => exact absurd rfl inhabited
  | cons first rest => rfl

end Page

end Parley
