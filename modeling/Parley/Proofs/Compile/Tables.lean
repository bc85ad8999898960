import Parley.Proofs.Compile.CountAgreement
import Parley.Proofs.Dialogue.Lookup

/-! The tables that counts size in advance: the branches, the responses of the branch at hand and the
commands of the list at hand. Whatever is read and whatever was counted, none is filled past its capacity. -/

namespace Parley

structure Table where
  capacity : Nat
  filled : Nat
  left : Nat
  deriving DecidableEq, Repr

def Table.Fits (table : Table) : Prop :=
  table.filled ≤ table.capacity ∧ table.left = table.capacity - table.filled

/-- The tables of a branch that `row` counts. While a list is open its response is not in the table yet. -/
def Position.tables (row : List Nat) : Position → List Table
  | .between _ | .header _ | .message _ _ => []
  | .responses branch => [⟨row.length, branch.responses.length, branch.counts.length⟩]
  | .commands branch list | .argument branch list _ =>
    [⟨row.length, branch.responses.length, branch.counts.length + 1⟩,
      ⟨row.getD branch.responses.length 0, list.directives.length,
        list.counted - list.directives.length⟩]

/-- The tables under way where `total` counts the whole text. -/
def Stage.tables (total : Counts) : Stage → List Table
  | .title _ => []
  | .body _ branches left position =>
    ⟨total.length, branches.length, left.length⟩ :: position.tables (total.getD branches.length [])

/-- What is filled and what is left make up `total`, branch by branch and response by response. -/
inductive Stage.Fills (total : Counts) : Stage → Prop
  | title {opened} : Fills total (.title opened)
  | between {heading branches left torn}
      (filled : total = branches.reverse.map Branch.counts ++ left) :
      Fills total (.body heading branches left (.between torn))
  | header {heading branches row later torn}
      (filled : total = branches.reverse.map Branch.counts ++ row :: later) :
      Fills total (.body heading branches (row :: later) (.header torn))
  | message {heading branches row later torn header}
      (filled : total = branches.reverse.map Branch.counts ++ row :: later) :
      Fills total (.body heading branches (row :: later) (.message torn header))
  | responses {heading branches row later} {branch : BranchDraft}
      (counted : row = branch.row branch.counts)
      (filled : total = branches.reverse.map Branch.counts ++ row :: later) :
      Fills total (.body heading branches (row :: later) (.responses branch))
  | commands {heading branches row later} {branch : BranchDraft} {list : ListDraft}
      (counted : row = branch.row (list.counted :: branch.counts))
      (within : list.directives.length ≤ list.counted)
      (filled : total = branches.reverse.map Branch.counts ++ row :: later) :
      Fills total (.body heading branches (row :: later) (.commands branch list))
  | argument {heading branches row later} {branch : BranchDraft} {list : ListDraft} {command}
      (counted : row = branch.row (list.counted :: branch.counts))
      (within : list.directives.length ≤ list.counted)
      (filled : total = branches.reverse.map Branch.counts ++ row :: later) :
      Fills total (.body heading branches (row :: later) (.argument branch list command))

namespace Draft

variable {total : Counts} {draft next : Draft} {mark : Mark}

theorem openString_fills (fills : draft.stage.Fills total)
    (reached : draft.openString mark = .ok next) : next.stage.Fills total := by
  unfold openString at reached
  split at reached
  case h_5 =>
    cases reached
    exact fills
  all_goals
    obtain ⟨_, _, rest⟩ := bind_ok reached
    cases rest
    exact fills

theorem closeString_fills (fills : draft.stage.Fills total)
    (reached : draft.closeString mark = .ok next) : next.stage.Fills total := by
  obtain ⟨quoted, buffer, stage⟩ := draft
  cases fills with
  | title => cases reached; exact .title
  | between filled => cases reached
  | header filled =>
    simp only [closeString] at reached
    split at reached
    · cases reached
    · split at reached <;> cases reached
      exact .message filled
  | message filled => cases reached; exact .responses rfl filled
  | responses counted filled => cases reached; exact .responses counted filled
  | commands counted within filled => cases reached; exact .commands counted within filled
  | argument counted within filled => cases reached; exact .argument counted within filled

theorem openTitle_fills (reached : draft.openTitle mark = .ok next) : next.stage.Fills total := by
  unfold openTitle at reached
  split at reached
  · obtain ⟨_, _, rest⟩ := bind_ok reached
    cases rest
    exact .title
  · cases reached

theorem closeTitle_fills (fills : draft.stage.Fills total)
    (reached : draft.closeTitle mark total = .ok next) : next.stage.Fills total := by
  obtain ⟨quoted, buffer, stage⟩ := draft
  simp only [closeTitle] at reached
  split at reached <;> cases reached
  cases fills with
  | title => exact .between rfl
  | between filled => exact .between filled
  | header filled => exact .between filled
  | message filled => exact .between filled
  | responses counted filled => exact .between filled
  | commands counted within filled => exact .between filled
  | argument counted within filled => exact .between filled

theorem openBranch_fills (fills : draft.stage.Fills total)
    (reached : draft.openBranch mark = .ok next) : next.stage.Fills total := by
  obtain ⟨quoted, buffer, stage⟩ := draft
  cases fills with
  | title => cases reached
  | @between heading branches left torn filled =>
    obtain ⟨_, _, rest⟩ := bind_ok reached
    match left with
    | [] => cases rest
    | row :: later =>
      cases rest
      exact .header filled
  | _ =>
    obtain ⟨_, _, rest⟩ := bind_ok reached
    cases rest

/-- The branch has every response that its row counts, so the row is its own. -/
theorem closeBranch_fills (fills : draft.stage.Fills total)
    (reached : draft.closeBranch mark = .ok next) : next.stage.Fills total := by
  obtain ⟨quoted, buffer, stage⟩ := draft
  cases fills with
  | @responses heading branches row later branch counted filled =>
    simp only [closeBranch] at reached
    split at reached
    · cases reached
    · split at reached
      · cases reached
      · rename_i complete
        split at reached <;> cases reached
        have none : branch.counts = [] := by simpa using complete
        refine .between ?_
        simp [filled, counted, none, BranchDraft.row, Branch.counts]
  | _ => cases reached

theorem openList_fills (fills : draft.stage.Fills total)
    (reached : draft.openList mark = .ok next) : next.stage.Fills total := by
  obtain ⟨quoted, buffer, stage⟩ := draft
  cases fills with
  | @responses heading branches row later branch counted filled =>
    simp only [openList] at reached
    split at reached
    · cases reached
    · rename_i first rest counts
      split at reached <;> cases reached
      refine .commands ?_ (Nat.zero_le _) filled
      simpa [BranchDraft.row, counts] using counted
  | _ => cases reached

theorem readPlain_fills {options : Options} (fills : draft.stage.Fills total)
    (reached : draft.readPlain options mark = .ok next) : next.stage.Fills total := by
  obtain ⟨quoted, buffer, stage⟩ := draft
  cases fills with
  | commands counted within filled =>
    simp only [readPlain] at reached
    split at reached
    · cases reached
      exact .commands counted within filled
    · split at reached
      · split at reached <;> cases reached
        exact .argument counted within filled
      · cases reached
        exact .commands counted within filled
  | argument counted within filled =>
    simp only [readPlain] at reached
    split at reached <;> cases reached
    all_goals exact .argument counted within filled
  | title => cases reached; exact .title
  | between filled => cases reached; exact .between filled
  | header filled => cases reached; exact .header filled
  | message filled => cases reached; exact .message filled
  | responses counted filled => cases reached; exact .responses counted filled

theorem endCommand_fills (fills : draft.stage.Fills total)
    (reached : draft.endCommand mark = .ok next) : next.stage.Fills total := by
  obtain ⟨quoted, buffer, stage⟩ := draft
  cases fills with
  | @argument heading branches row later branch list command counted within filled =>
    simp only [endCommand] at reached
    split at reached
    · cases reached
    · rename_i room
      cases reached
      exact .commands counted (Nat.lt_of_le_of_ne within room) filled
  | _ => cases reached

/-- The list has every command that it was counted for, so its response is the one counted. -/
theorem closeList_fills (fills : draft.stage.Fills total)
    (reached : draft.closeList mark = .ok next) : next.stage.Fills total := by
  obtain ⟨quoted, buffer, stage⟩ := draft
  cases fills with
  | @commands heading branches row later branch list counted within filled =>
    simp only [closeList] at reached
    split at reached
    · cases reached
    · split at reached
      · cases reached
      · rename_i complete
        cases reached
        refine .responses ?_ filled
        simpa [BranchDraft.row, Decidable.not_not.mp complete] using counted
  | _ => cases reached

theorem read_fills {options : Options} (fills : draft.stage.Fills total)
    (reached : draft.read options total mark = .ok next) : next.stage.Fills total := by
  unfold read at reached
  split at reached
  · split at reached
    · exact closeString_fills fills reached
    · exact openString_fills fills reached
  · split at reached
    · cases reached
      exact fills
    · split at reached
      · exact openTitle_fills reached
      · exact closeTitle_fills fills reached
      · exact openBranch_fills fills reached
      · exact closeBranch_fills fills reached
      · exact openList_fills fills reached
      · exact closeList_fills fills reached
      · exact endCommand_fills fills reached
      · exact readPlain_fills fills reached

theorem foldlM_fills {options : Options} {marks : List Mark} (fills : draft.stage.Fills total)
    (reached : marks.foldlM (read options total) draft = .ok next) : next.stage.Fills total :=
  foldlM_keeps read_fills fills reached

theorem finish_fills {dialogue : Dialogue} (fills : draft.stage.Fills total)
    (finished : draft.finish = .ok dialogue) : dialogue.counts = total := by
  obtain ⟨quoted, buffer, stage⟩ := draft
  simp only [finish] at finished
  split at finished
  · cases finished
  · rename_i heading branches left position
    split at finished
    · cases finished
    · split at finished
      · cases finished
      · rename_i closed
        split at finished
        · cases finished
        · rename_i complete
          obtain rfl : position = .between false := Decidable.not_not.mp closed
          obtain rfl : left = [] := by simpa using complete
          cases fills with
          | between filled =>
            rw [List.append_nil] at filled
            rw [filled, Dialogue.counts, (Dialogue.start_of_ofBranches? finished).1]

/-- Building never invents what was not counted, nor leaves out what was. -/
theorem counts_of_build {options : Options} {marks : List Mark} {dialogue : Dialogue}
    (built : build options total marks = .ok dialogue) : dialogue.counts = total := by
  obtain ⟨draft, read, finished⟩ := bind_ok built
  exact finish_fills (foldlM_fills .title read) finished

end Draft

theorem BranchDraft.fits_responses (branch : BranchDraft) :
    ∀ table ∈ Position.tables (branch.row branch.counts) (.responses branch), table.Fits := by
  intro table listed
  obtain rfl := List.mem_singleton.mp listed
  simp [Table.Fits, row]

theorem BranchDraft.fits_commands (branch : BranchDraft) {list : ListDraft}
    (within : list.directives.length ≤ list.counted) :
    ∀ table ∈ Position.tables (branch.row (list.counted :: branch.counts)) (.commands branch list),
      table.Fits := by
  intro table listed
  rcases List.mem_cons.mp listed with rfl | listed
  · simp [Table.Fits, row]
  · obtain rfl := List.mem_singleton.mp listed
    simp [Table.Fits, row, within]

section Fits

variable {total left : Counts} {branches : List Branch} {row : List Nat} {later : Counts} {title : String}
  {position : Position}

theorem Stage.fits_between (filled : total = branches.reverse.map Branch.counts ++ left)
    (fits : ∀ table ∈ position.tables (total.getD branches.length []), table.Fits) :
    ∀ table ∈ (Stage.body title branches left position).tables total, table.Fits := by
  intro table listed
  rcases List.mem_cons.mp listed with rfl | listed
  · simp [Table.Fits, filled]
  · exact fits table listed

theorem Stage.fits_within (filled : total = branches.reverse.map Branch.counts ++ row :: later)
    (fits : ∀ table ∈ position.tables row, table.Fits) :
    ∀ table ∈ (Stage.body title branches (row :: later) position).tables total, table.Fits := by
  refine Stage.fits_between filled ?_
  simpa [filled] using fits

end Fits

theorem Stage.Fills.fits {total : Counts} {stage : Stage} (fills : stage.Fills total) :
    ∀ table ∈ stage.tables total, table.Fits := by
  cases fills with
  | title => exact List.forall_mem_nil _
  | between filled => exact Stage.fits_between filled (List.forall_mem_nil _)
  | header filled => exact Stage.fits_between filled (List.forall_mem_nil _)
  | message filled => exact Stage.fits_between filled (List.forall_mem_nil _)
  | @responses _ _ _ _ branch counted filled =>
    exact Stage.fits_within filled (counted ▸ branch.fits_responses)
  | @commands _ _ _ _ branch _ counted within filled =>
    exact Stage.fits_within filled (counted ▸ branch.fits_commands within)
  | @argument _ _ _ _ branch _ _ counted within filled =>
    exact Stage.fits_within filled (counted ▸ branch.fits_commands within)

end Parley
