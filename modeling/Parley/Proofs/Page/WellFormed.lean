import Parley.Proofs.Page.Language
import Parley.Proofs.Writing.Basic

namespace Parley

variable {options : Options}

theorem Piece.quote_not_mem_content (piece : Piece) : '"' ∉ piece.content := by
  cases piece with
  | plain c free => simpa [eq_comm] using ne_quote_of_free free
  | quoted content closed => exact closed

/-- Texts that pieces add up to can be written in a string. -/
theorem quotable_contents (pieces : List Piece) : Quotable (String.ofList (contents pieces)) := by
  rw [Quotable, String.toList_ofList]
  intro quoted
  obtain ⟨piece, _, within⟩ := List.mem_flatMap.mp quoted
  exact piece.quote_not_mem_content within

theorem Command.known_of_command? {name : String} {command : Command}
    (found : options.command? name = some command) : command.Known options := by
  unfold Options.command? at found
  split at found
  · rename_i builtin named
    cases Option.some.inj found
    unfold Command.builtin? at named
    split at named <;> cases named <;> trivial
  · split at found
    · rename_i listed
      cases found
      exact listed
    · cases found

theorem ResponsePage.wellFormed (page : ResponsePage options) : page.response.WellFormed options where
  spoken := by simpa [ResponseStart.response] using page.spoken
  quotable := quotable_contents page.line
  known := by
    intro directive member
    obtain ⟨command, _, rfl⟩ := List.mem_map.mp member
    exact Command.known_of_command? command.known
  arguments := by
    intro directive member
    obtain ⟨command, _, rfl⟩ := List.mem_map.mp member
    exact quotable_contents _

theorem BranchPage.wellFormed (page : BranchPage options) : page.branch.WellFormed options where
  named := by simpa [BranchStart.branch] using page.named
  unreserved := page.unreserved
  header := by simpa [Quotable, BranchStart.branch] using page.headerClosed
  message := by simpa [Quotable, BranchStart.branch] using page.messageClosed
  answered := by simpa [BranchStart.branch] using page.answered
  responses := by
    intro response member
    obtain ⟨written, _, rfl⟩ := List.mem_map.mp member
    exact written.wellFormed

theorem Page.wellFormed (page : Page options) : page.dialogue.WellFormed options where
  visible := by simpa [dialogue] using page.visible
  title := quotable_contents page.title
  branches := by
    intro branch member
    obtain ⟨written, _, rfl⟩ := List.mem_map.mp member
    exact written.wellFormed
  active := by simp [dialogue, List.head?_eq_some_head page.inhabited]

theorem wellFormed_of_compile (compiled : compile options source = .ok dialogue) :
    dialogue.WellFormed options := by
  obtain ⟨_, ⟨page, _, rfl⟩, _⟩ := (compile_ok_iff options source dialogue).mp compiled
  exact page.wellFormed

end Parley
