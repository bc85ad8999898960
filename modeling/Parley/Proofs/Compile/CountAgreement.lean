import Parley.Proofs.Compile.Draft
import Parley.Proofs.Source.Tally

/-! The counts and the draft agree. While a balanced text is read, what the draft still has to fill is
exactly what the rest of the text holds, so it is never refused for the sake of its counts. -/

namespace Parley

def Branch.counts (branch : Branch) : List Nat :=
  branch.responses.map fun response => response.directives.length

def Dialogue.counts (dialogue : Dialogue) : Counts := dialogue.branches.map Branch.counts

/-- The counts of a branch that some responses of are read and others are counted. -/
def BranchDraft.row (branch : BranchDraft) (waiting : List Nat) : List Nat :=
  branch.responses.reverse.map (fun response => response.directives.length) ++ waiting

/-- Faults that an author can mend in the page. The others say that a draft and its counts, or a draft
and the regions of its text, do not belong together. -/
def DraftFault.isAuthored : DraftFault → Bool
  | strayText _ | stringOutside | trailingText _ | duplicateTitle | blankTitle | branchBeforeTitle
  | noTitle | noHeader | emptyHeader | reservedHeader _ | noMessage | noResponse | noCommandList _
  | noResponses _ | noBranches _ | unknownCommand _ | unseparated _ | unterminatedCommand => true
  | branchEndsInside | listOpensInside | listClosesInside | unterminatedBranch | moreBranches
  | moreResponses | fewerResponses | overfull _ _ | underfull _ _ _ | uncountedBranch _
  | uncountedResponse _ _ | noBranchBegun | noResponseBegun | noCommandBegun | incompleteBranch
  | incompleteResponse | unevenLists _ _ _ => false

/-- The codes that only such other faults have. -/
def internalCodes : List String :=
  ["QDL_BUILD_CAPACITY", "QDL_BUILD_UNEXPECTED", "QDL_BUILD_UNTERMINATED", "QDL_BUILD_NO_BRANCH",
    "QDL_BUILD_NO_OBJECT", "QDL_BUILD_COMMAND_ARG_MISMATCH"]

theorem DraftFault.code_of_isAuthored {fault : DraftFault} (authored : fault.isAuthored = true) :
    fault.code ∉ internalCodes := by
  cases fault <;> simp_all [isAuthored, code, internalCodes]

/-- A good result, or a fault of the author. -/
def Settled (good : α → Prop) : Except Failure α → Prop
  | .ok value => good value
  | .error failure => ∃ fault, failure.cause = .draft fault ∧ fault.isAuthored = true

theorem settled_refuse {good : α → Prop} {fault : DraftFault} (authored : fault.isAuthored = true)
    (mark : Mark) : Settled good (refuse mark fault) := ⟨fault, rfl, authored⟩

theorem Settled.bind {good : α → Prop} {better : β → Prop} {first : Except Failure α}
    {next : α → Except Failure β} (settled : Settled good first)
    (later : ∀ value, good value → Settled better (next value)) : Settled better (first >>= next) := by
  cases first with
  | error failure => exact settled
  | ok value => exact later value settled

theorem settled_refuseStray (mark : Mark) (buffer : Buffer) :
    Settled (fun _ => buffer.isEmpty = true) (refuseStray mark buffer) := by
  unfold refuseStray
  split
  · assumption
  · exact settled_refuse rfl mark

/-- `total` counts the whole text and `left` what is still to be read in the region around the place: a
stage has filled the one and waits for the other. -/
inductive Stage.Agrees (total : Counts) : Option Region → Counts → Stage → Prop
  | before : Agrees total none total (.title false)
  | title : Agrees total (some .title) total (.title true)
  | between {heading branches left}
      (filled : total = branches.reverse.map Branch.counts ++ left) :
      Agrees total none left (.body heading branches left (.between false))
  | header {heading branches left}
      (filled : total = branches.reverse.map Branch.counts ++ left) :
      Agrees total (some .branch) left (.body heading branches left (.header false))
  | message {heading branches left header}
      (filled : total = branches.reverse.map Branch.counts ++ left) :
      Agrees total (some .branch) left (.body heading branches left (.message false header))
  | responses {heading branches row later} {branch : BranchDraft}
      (filled : total = branches.reverse.map Branch.counts ++ branch.row branch.counts :: later) :
      Agrees total (some .branch) (branch.counts :: later)
        (.body heading branches (row :: later) (.responses branch))
  | commands {heading branches row later} {branch : BranchDraft} {list waiting}
      (counted : list.counted = list.directives.length + waiting)
      (filled : total = branches.reverse.map Branch.counts ++
        branch.row (list.counted :: branch.counts) :: later) :
      Agrees total (some .commands) ((waiting :: branch.counts) :: later)
        (.body heading branches (row :: later) (.commands branch list))
  | argument {heading branches row later} {branch : BranchDraft} {list waiting command}
      (counted : list.counted = list.directives.length + waiting)
      (filled : total = branches.reverse.map Branch.counts ++
        branch.row (list.counted :: branch.counts) :: later) :
      Agrees total (some .commands) ((waiting :: branch.counts) :: later)
        (.body heading branches (row :: later) (.argument branch list command))

namespace Draft

variable {total left : Counts} {scope after : Option Region} {draft : Draft}

theorem openString_agrees (agrees : draft.stage.Agrees total scope left) (mark : Mark) :
    Settled (fun next => next.stage.Agrees total scope left ∧ next.quoted = true)
      (draft.openString mark) := by
  have opened : Settled (fun next : Draft => next.stage.Agrees total scope left ∧ next.quoted = true)
      (.ok { draft with quoted := true }) := ⟨agrees, rfl⟩
  unfold openString
  split
  case h_5 => exact opened
  all_goals exact (settled_refuseStray mark _).bind fun _ _ => opened

/-- A message is followed by the responses that its branch was counted for. -/
theorem closeString_agrees (agrees : draft.stage.Agrees total scope left)
    (covers : left.Covers scope) (mark : Mark) :
    Settled (fun next => next.stage.Agrees total scope left ∧ next.quoted = false)
      (draft.closeString mark) := by
  obtain ⟨quoted, buffer, stage⟩ := draft
  cases agrees with
  | before => exact ⟨.before, rfl⟩
  | title => exact ⟨.title, rfl⟩
  | between filled => exact settled_refuse rfl mark
  | header filled =>
    simp only [closeString]
    split
    · exact settled_refuse rfl mark
    · split
      · exact settled_refuse rfl mark
      · exact ⟨.message filled, rfl⟩
  | @message heading branches _ header filled =>
    match left, covers with
    | row :: later, _ =>
      let branch : BranchDraft := ⟨header, buffer.text, [], row⟩
      have begun := @Stage.Agrees.responses total heading branches row later branch filled
      exact ⟨begun, rfl⟩
  | responses filled => exact ⟨.responses filled, rfl⟩
  | commands counted filled => exact ⟨.commands counted filled, rfl⟩
  | argument counted filled => exact ⟨.argument counted filled, rfl⟩

theorem openTitle_agrees (agrees : draft.stage.Agrees total none left) (mark : Mark) :
    Settled (fun next => next.stage.Agrees total (some .title) left ∧ next.quoted = draft.quoted)
      (draft.openTitle mark) := by
  obtain ⟨quoted, buffer, stage⟩ := draft
  cases agrees with
  | before => exact (settled_refuseStray mark _).bind fun _ _ => ⟨.title, rfl⟩
  | between filled => exact settled_refuse rfl mark

theorem closeTitle_agrees (agrees : draft.stage.Agrees total (some .title) left) (mark : Mark) :
    Settled (fun next => next.stage.Agrees total none left ∧ next.quoted = draft.quoted)
      (draft.closeTitle mark total) := by
  obtain ⟨quoted, buffer, stage⟩ := draft
  cases agrees with
  | title =>
    unfold closeTitle
    split
    · exact settled_refuse rfl mark
    · exact ⟨.between rfl, rfl⟩

theorem openBranch_agrees (agrees : draft.stage.Agrees total none left)
    (covers : left.Covers (some .branch)) (mark : Mark) :
    Settled (fun next => next.stage.Agrees total (some .branch) left ∧ next.quoted = draft.quoted)
      (draft.openBranch mark) := by
  obtain ⟨quoted, buffer, stage⟩ := draft
  cases agrees with
  | before => exact settled_refuse rfl mark
  | between filled =>
    refine (settled_refuseStray mark _).bind fun _ _ => ?_
    match left, covers with
    | row :: later, _ => exact ⟨.header filled, rfl⟩

theorem closeBranch_agrees (agrees : draft.stage.Agrees total (some .branch) ([] :: left))
    (mark : Mark) :
    Settled (fun next => next.stage.Agrees total none left ∧ next.quoted = draft.quoted)
      (draft.closeBranch mark) := by
  obtain ⟨quoted, buffer, stage⟩ := draft
  generalize waiting : ([] :: left : Counts) = counts at agrees
  cases agrees with
  | header filled => exact settled_refuse rfl mark
  | message filled => exact settled_refuse rfl mark
  | @responses heading branches row later branch filled =>
    obtain ⟨none, rfl⟩ := List.cons.inj waiting
    simp only [closeBranch]
    split
    · exact settled_refuse rfl mark
    · simp only [← none, List.isEmpty_nil, Bool.not_true, Bool.false_eq_true, ↓reduceIte]
      split
      · exact settled_refuse rfl mark
      · refine ⟨.between ?_, rfl⟩
        simp [filled, ← none, BranchDraft.row, Branch.counts]

theorem openList_agrees (agrees : draft.stage.Agrees total (some .branch) left)
    (covers : left.Covers (some .commands)) (mark : Mark) :
    Settled (fun next => next.stage.Agrees total (some .commands) left ∧ next.quoted = draft.quoted)
      (draft.openList mark) := by
  obtain ⟨quoted, buffer, stage⟩ := draft
  cases agrees with
  | header filled => exact settled_refuse rfl mark
  | message filled => exact settled_refuse rfl mark
  | @responses heading branches row later branch filled =>
    match counts : branch.counts, covers with
    | counted :: rest, _ =>
      simp only [openList, counts]
      split
      · exact settled_refuse rfl mark
      · let opened : BranchDraft := { branch with counts := rest }
        let list : ListDraft := ⟨buffer.text, [], counted⟩
        have filled : total = branches.reverse.map Branch.counts ++
            opened.row (list.counted :: opened.counts) :: later := by
          simpa [BranchDraft.row, counts, opened, list] using filled
        exact ⟨.commands (Nat.zero_add counted).symm filled, rfl⟩

theorem closeList_agrees {row : List Nat}
    (agrees : draft.stage.Agrees total (some .commands) ((0 :: row) :: left)) (mark : Mark) :
    Settled (fun next => next.stage.Agrees total (some .branch) (row :: left) ∧
      next.quoted = draft.quoted) (draft.closeList mark) := by
  obtain ⟨quoted, buffer, stage⟩ := draft
  generalize left_ : ((0 :: row) :: left : Counts) = counts at agrees
  cases agrees with
  | @commands heading branches first later branch list waiting counted filled =>
    obtain ⟨same, rfl⟩ := List.cons.inj left_
    obtain ⟨rfl, rfl⟩ := List.cons.inj same
    simp only [closeList]
    split
    · exact settled_refuse rfl mark
    · simp only [counted, Nat.add_zero, ne_eq, not_true_eq_false, ↓reduceIte]
      let closed : Response := ⟨list.response, list.directives.reverse⟩
      have filled : total = branches.reverse.map Branch.counts ++
          { branch with responses := closed :: branch.responses }.row branch.counts :: left := by
        simpa [BranchDraft.row, counted, closed] using filled
      exact ⟨.responses filled, rfl⟩
  | argument counted filled => exact settled_refuse rfl mark

theorem endCommand_agrees {waiting : Nat} {row : List Nat}
    (agrees : draft.stage.Agrees total (some .commands) (((waiting + 1) :: row) :: left))
    (mark : Mark) :
    Settled (fun next => next.stage.Agrees total (some .commands) ((waiting :: row) :: left) ∧
      next.quoted = draft.quoted) (draft.endCommand mark) := by
  obtain ⟨quoted, buffer, stage⟩ := draft
  generalize left_ : (((waiting + 1) :: row) :: left : Counts) = counts at agrees
  cases agrees with
  | commands counted filled => exact settled_refuse rfl mark
  | @argument heading branches first later branch list open_ command counted filled =>
    obtain ⟨same, rfl⟩ := List.cons.inj left_
    obtain ⟨rfl, rfl⟩ := List.cons.inj same
    have room : list.directives.length ≠ list.counted := by omega
    simp only [endCommand, room, ↓reduceIte]
    have still : list.counted =
        (⟨command, buffer.trimmed⟩ :: list.directives : List Directive).length + waiting := by
      rw [List.length_cons]
      omega
    exact ⟨.commands still filled, rfl⟩

theorem readPlain_agrees (agrees : draft.stage.Agrees total scope left) (options : Options)
    (mark : Mark) :
    Settled (fun next => next.stage.Agrees total scope left ∧ next.quoted = draft.quoted)
      (draft.readPlain options mark) := by
  obtain ⟨quoted, buffer, stage⟩ := draft
  cases agrees with
  | before => exact ⟨.before, rfl⟩
  | title => exact ⟨.title, rfl⟩
  | between filled => exact ⟨.between filled, rfl⟩
  | header filled => exact ⟨.header filled, rfl⟩
  | message filled => exact ⟨.message filled, rfl⟩
  | responses filled => exact ⟨.responses filled, rfl⟩
  | commands counted filled =>
    simp only [readPlain]
    split
    · exact ⟨.commands counted filled, rfl⟩
    · split
      · split
        · exact settled_refuse rfl mark
        · exact ⟨.argument counted filled, rfl⟩
      · exact ⟨.commands counted filled, rfl⟩
  | argument counted filled =>
    simp only [readPlain]
    split
    · exact ⟨.argument counted filled, rfl⟩
    · exact ⟨.argument counted filled, rfl⟩

theorem read_outside {mark : Mark} (unquoted : mark.char ≠ '"') (outside : draft.quoted = false)
    (options : Options) :
    draft.read options total mark =
      match mark.char with
      | '[' => draft.openTitle mark
      | ']' => draft.closeTitle mark total
      | '{' => draft.openBranch mark
      | '}' => draft.closeBranch mark
      | '(' => draft.openList mark
      | ')' => draft.closeList mark
      | ';' => draft.endCommand mark
      | _ => draft.readPlain options mark := by
  have inactive : ¬draft.quoted = true := by simp [outside]
  exact (if_neg unquoted).trans (if_neg inactive)

theorem read_free {mark : Mark} (free : isDelimiter mark.char = false) (outside : draft.quoted = false)
    (options : Options) : draft.read options total mark = draft.readPlain options mark := by
  rw [read_outside (ne_quote_of_free free) outside]
  generalize mark.char = c at free
  split
  case h_8 => rfl
  all_goals exact absurd free (by decide)

/-- One character outside strings: what it ends or begins is taken off the counts that are left. -/
theorem read_agrees {mark : Mark} (agrees : draft.stage.Agrees total scope (left.precede mark.char))
    (outside : draft.quoted = false) (turn : Region.Turn scope mark.char after)
    (covers : left.Covers after) (options : Options) :
    Settled (fun next => next.stage.Agrees total after left ∧ next.quoted = false)
      (draft.read options total mark) := by
  rw [read_outside turn.ne_quote outside, ← outside]
  generalize mark.char = c at agrees turn
  cases turn with
  | openTitle =>
    rw [Counts.precede_of_mem (by simp)] at agrees
    exact openTitle_agrees agrees mark
  | closeTitle =>
    rw [Counts.precede_of_mem (by simp)] at agrees
    exact closeTitle_agrees agrees mark
  | openBranch =>
    rw [Counts.precede_of_mem (by simp)] at agrees
    exact openBranch_agrees agrees covers mark
  | closeBranch => exact closeBranch_agrees agrees mark
  | openList =>
    rw [Counts.precede_of_mem (by simp)] at agrees
    exact openList_agrees agrees covers mark
  | closeList =>
    match left, covers with
    | row :: later, _ => exact closeList_agrees agrees mark
  | endCommand =>
    match left, covers with
    | (waiting :: row) :: later, _ => exact endCommand_agrees agrees mark
  | plain free =>
    rw [Counts.precede_plain free] at agrees
    split
    case h_8 => exact readPlain_agrees agrees options mark
    all_goals exact absurd free (by decide)

/-- A balanced rest is read to its end unless the author made a fault, and then nothing is left to fill. -/
theorem foldlM_agrees {marks : List Mark} (closes : Source.Balanced scope draft.quoted (Source.text marks))
    (agrees : draft.stage.Agrees total scope (Source.tally draft.quoted (Source.text marks)))
    (options : Options) :
    Settled (fun last => last.stage.Agrees total none [] ∧ last.quoted = false)
      (marks.foldlM (read options total) draft) := by
  induction marks generalizing scope draft with
  | nil =>
    generalize quotes : draft.quoted = quoted at closes agrees
    cases closes with
    | done => exact ⟨agrees, quotes⟩
  | cons mark rest ih =>
    rw [List.foldlM_cons]
    have spelled : Source.text (mark :: rest) = mark.char :: Source.text rest := rfl
    rw [spelled] at closes agrees
    by_cases quote : mark.char = '"'
    · rw [quote, Source.balanced_quote] at closes
      rw [quote, Source.tally_quote] at agrees
      have toggled : Settled (fun next => next.stage.Agrees total scope
          (Source.tally (!draft.quoted) (Source.text rest)) ∧ next.quoted = !draft.quoted)
          (draft.read options total mark) := by
        cases quotes : draft.quoted with
        | true =>
          rw [quotes] at agrees closes
          simpa [read, quote, quotes] using
            closeString_agrees agrees (Source.covers_tally closes) mark
        | false =>
          rw [quotes] at agrees
          simpa [read, quote, quotes] using openString_agrees agrees mark
      refine toggled.bind fun next reached => @ih scope next ?_ ?_
      · rwa [reached.2]
      · rw [reached.2]
        exact reached.1
    · cases quotes : draft.quoted with
      | true =>
        rw [quotes, Source.balanced_inside quote] at closes
        rw [quotes, Source.tally_inside quote] at agrees
        have pushed : draft.read options total mark =
            .ok { draft with buffer := draft.buffer.push mark.char } := by
          simp [read, quote, quotes]
        rw [pushed]
        exact ih (by simpa [quotes] using closes) (by simpa [quotes] using agrees)
      | false =>
        rw [quotes, Source.balanced_outside quote] at closes
        rw [quotes, Source.tally_outside quote] at agrees
        obtain ⟨after, turn, closes⟩ := closes
        refine (read_agrees agrees quotes turn (Source.covers_tally closes) options).bind
          fun next reached => @ih after next ?_ ?_
        · rwa [reached.2]
        · rw [reached.2]
          exact reached.1

theorem finish_agrees (agrees : draft.stage.Agrees total none []) :
    Settled (fun dialogue => dialogue.counts = total) draft.finish := by
  obtain ⟨quoted, buffer, stage⟩ := draft
  generalize done : ([] : Counts) = left at agrees
  cases agrees with
  | before => exact ⟨_, rfl, rfl⟩
  | between filled =>
    subst done
    simp only [finish]
    split
    · exact ⟨_, rfl, rfl⟩
    · simp only [ne_eq, not_true_eq_false, ↓reduceIte, List.isEmpty_nil, Bool.not_true,
        Bool.false_eq_true]
      rename_i heading branches _
      cases finished : branches.reverse with
      | nil => exact ⟨_, rfl, rfl⟩
      | cons first rest =>
        rw [List.append_nil, finished] at filled
        exact filled.symm

/-- Building a balanced text with its own counts gives a dialogue of exactly these counts, or a fault of
the author. -/
theorem build_agrees {marks : List Mark} (closes : Source.Balanced none false (Source.text marks))
    (options : Options) :
    Settled (fun dialogue => dialogue.counts = Source.tally false (Source.text marks))
      (build options (Source.tally false (Source.text marks)) marks) :=
  (@foldlM_agrees _ none .start marks closes .before options).bind fun _ reached =>
    finish_agrees reached.1

end Draft

end Parley
