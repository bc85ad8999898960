import Parley.Proofs.Dialogue.Lookup
import Parley.Proofs.Page.WellFormed
import Parley.Proofs.Writing.RoundTrip

namespace Parley

variable {options : Options}

/-- The words of a writing in which every text is a string. -/
def Directive.words (directive : Directive) : List (List Char) :=
  [directive.command.name.toList ++ [' '], quote directive.argument, [';']]

def Response.words (response : Response) : List (List Char) :=
  quote response.text :: ['('] :: (response.directives.flatMap Directive.words ++ [[')']])

def Branch.words (branch : Branch) : List (List Char) :=
  ['{'] :: quote branch.header :: quote branch.message ::
    (branch.responses.flatMap Response.words ++ [['}']])

namespace Dialogue

def writing (dialogue : Dialogue) : String :=
  String.ofList (('[' :: (quote dialogue.title ++ [']'])) ++ (dialogue.branches.flatMap Branch.words).flatten)

end Dialogue

theorem directiveWords_words (directives : List Directive) :
    DirectiveWords directives (directives.flatMap Directive.words) := by
  induction directives with
  | nil => exact .nil
  | cons directive rest ih => exact .cons .quoted ih

theorem responseWords_words (responses : List Response) :
    ResponseWords responses (responses.flatMap Response.words) := by
  induction responses with
  | nil => exact .nil
  | cons response rest ih =>
    have written := ResponseWords.cons (directiveWords_words response.directives) ih
    simpa [Response.words] using written

theorem branchWords_words (branches : List Branch) :
    BranchWords branches (branches.flatMap Branch.words) := by
  induction branches with
  | nil => exact .nil
  | cons branch rest ih =>
    have written := BranchWords.cons (responseWords_words branch.responses) ih
    simpa [Branch.words] using written

theorem laid_flatten (words : List (List Char)) : Laid words words.flatten := by
  induction words with
  | nil => exact .nil nofun
  | cons word words ih => exact @Laid.cons [] words words.flatten word nofun ih

theorem Dialogue.written_writing (dialogue : Dialogue) : dialogue.Written dialogue.writing := by
  refine ⟨_, _, .quoted, branchWords_words dialogue.branches, ?_⟩
  rw [writing, String.toList_ofList, ← List.flatten_cons]
  exact laid_flatten _

/-- A well-formed dialogue stands at its first branch. -/
theorem Dialogue.WellFormed.opening {dialogue : Dialogue} (formed : dialogue.WellFormed options) :
    ∃ first rest, dialogue.branches = first :: rest ∧ dialogue.active = first.header ∧
      dialogue.activeBranch = .ok first := by
  obtain ⟨first, head, active⟩ := Option.map_eq_some_iff.mp formed.active
  obtain ⟨rest, branches⟩ := List.head?_eq_some_iff.mp head
  refine ⟨first, rest, branches, active.symm, activeBranch_of_branch? ?_⟩
  rw [branch?_eq_find?, branches, ← active]
  simp

/-- No branch is written under the header of the end, so nothing is over before it begins. -/
theorem Dialogue.WellFormed.not_over {dialogue : Dialogue} (formed : dialogue.WellFormed options) :
    dialogue.isOver = false := by
  obtain ⟨first, rest, branches, active, _⟩ := formed.opening
  have unreserved := (formed.branches first (by simp [branches])).unreserved
  rw [isOver, active]
  exact beq_eq_false_iff_ne.mpr unreserved

/-- Each writing of a compiled dialogue compiles to it again, references included. -/
theorem compile_rewritten (compiled : compile options source = .ok dialogue) {writing : String}
    (written : dialogue.Written writing) : compile options writing = .ok dialogue := by
  obtain ⟨valid, _, clear⟩ := (compile_ok_iff options source dialogue).mp compiled
  refine (compile_ok_iff options writing dialogue).mpr ⟨valid, ?_, clear⟩
  rw [Source.text_strip]
  exact page_of_written valid (wellFormed_of_compile compiled) written

/-- Whatever a source compiles to is well-formed, stands at its first branch, and is what its own writings
compile to. -/
theorem compile_wellFormed (compiled : compile options source = .ok dialogue) :
    dialogue.WellFormed options ∧
      (∃ first rest, dialogue.branches = first :: rest ∧ dialogue.active = first.header ∧
        dialogue.activeBranch = .ok first) ∧
      dialogue.isOver = false ∧
      (∀ branch ∈ dialogue.branches, ∀ response ∈ branch.responses,
        response.arguments.length = response.commands.length) ∧
      dialogue.Written dialogue.writing ∧ compile options dialogue.writing = .ok dialogue ∧
      ∀ writing, dialogue.Written writing → compile options writing = .ok dialogue := by
  have formed := wellFormed_of_compile compiled
  refine ⟨formed, formed.opening, formed.not_over, ?_, dialogue.written_writing,
    compile_rewritten compiled dialogue.written_writing, fun _ => compile_rewritten compiled⟩
  intro branch _ response _
  simp [Response.arguments, Response.commands]

def gateBranches : List Branch :=
  [⟨"gate", "", [⟨"Knock!", [⟨.host "knock", " twice x"⟩, ⟨.goto, "yard"⟩]⟩]⟩,
    ⟨"yard", "\x7b;\x7d", [⟨"Wait.", []⟩]⟩]

def gateDialogue : Dialogue := ⟨"The Gate", gateBranches, "gate", indexFrom 0 gateBranches, rfl⟩

/-- Empty strings where nothing is asked for, and texts that are quoted in part. -/
def gateSource : String :=
  "[\"The\" Gate]\x7b\"gate\" \"\"\n\"\"\"Knock\"!(knock \" twice\" x ;goto yard;)\"\"\x7d\n" ++
    "\x7b\"yard\"\"\x7b;\x7d\"\"Wait.\"( )\x7d"

theorem compile_gateSource : compile (.ofNames ["knock"] true) gateSource = .ok gateDialogue := by rfl

theorem compile_wellFormed_gate :
    compile (.ofNames ["knock"] true) gateSource = .ok gateDialogue ∧
      gateDialogue.WellFormed (.ofNames ["knock"] true) ∧
      (∃ first rest, gateDialogue.branches = first :: rest ∧ gateDialogue.active = first.header ∧
        gateDialogue.activeBranch = .ok first) ∧
      gateDialogue.isOver = false ∧
      (∀ branch ∈ gateDialogue.branches, ∀ response ∈ branch.responses,
        response.arguments.length = response.commands.length) ∧
      gateDialogue.Written gateDialogue.writing ∧
      compile (.ofNames ["knock"] true) gateDialogue.writing = .ok gateDialogue ∧
      ∀ writing, gateDialogue.Written writing →
        compile (.ofNames ["knock"] true) writing = .ok gateDialogue :=
  ⟨compile_gateSource, compile_wellFormed compile_gateSource⟩

end Parley
