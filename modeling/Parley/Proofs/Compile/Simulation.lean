import Parley.Proofs.Compile.Alike
import Parley.Proofs.Compile.Tables

/-! The builder goes where the draft goes. What it has at hand is what its mode asks for, whatever was
counted, so the faults of a builder that lacks a branch, a response or a command are never reached. -/

namespace Parley

theorem Response.ofLists?_ok_iff {text : String} {commands : List Command} {arguments : List String}
    {response : Response} :
    ofLists? text commands arguments = .ok response ↔ commands.length = arguments.length ∧
      response.text = text ∧ response.commands = commands ∧ response.arguments = arguments := by
  obtain ⟨said, directives⟩ := response
  constructor
  · intro paired
    unfold ofLists? at paired
    split at paired <;> cases paired
    rename_i same
    have zipped := @List.map_uncurry_zip_eq_zipWith
    refine ⟨same, rfl, ?_, ?_⟩
    · exact List.map_zipWith.trans (zipped.symm.trans (List.map_fst_zip (Nat.le_of_eq same)))
    · exact List.map_zipWith.trans (zipped.symm.trans (List.map_snd_zip (Nat.le_of_eq same.symm)))
  · rintro ⟨same, rfl, rfl, rfl⟩
    simp [ofLists?, Response.commands, Response.arguments, List.zipWith_map, List.zipWith_self]

/-- The next branch as a builder gets it ready, where `left` counts those to come. -/
def PendingBranch.next? (left : Counts) : Option PendingBranch :=
  left.head?.map fun row => .sized row.length

def PendingResponse.next? (left : List Nat) : Option PendingResponse := left.head?.map .sized

@[simp]
theorem PendingBranch.any_opened_next? (left : Counts) : (next? left).any opened = false := by
  cases left <;> rfl

@[simp]
theorem PendingResponse.isSome_next? (left : List Nat) : (next? left).isSome = !left.isEmpty := by
  cases left <;> rfl

def BranchDraft.pending (row : List Nat) (branch : BranchDraft) : PendingBranch :=
  ⟨true, some branch.header, some branch.message, ⟨.responses, row.length, branch.responses⟩⟩

def ListDraft.pending (command : Option Command) (list : ListDraft) : PendingResponse :=
  ⟨some list.response, command,
    ⟨.commands, list.counted, list.directives.map Directive.command⟩,
    ⟨.arguments, list.counted, list.directives.map Directive.argument⟩⟩

/-- The branch and the response that a builder has at hand where the draft is at `position`; of a response
that a title has torn only its being there is known. -/
inductive Position.Holds (row : List Nat) :
    Position → Mode → Option PendingBranch → Option PendingResponse → Prop
  | header {torn response} (rest : response.isSome = torn) :
      Holds row (.header torn) .header (some { PendingBranch.sized row.length with opened := true }) response
  | message {torn response header} (rest : response.isSome = torn) :
      Holds row (.message torn header) .message
        (some { PendingBranch.sized row.length with opened := true, header := some header }) response
  | responses {branch : BranchDraft} :
      Holds row (.responses branch) .response (some (branch.pending row))
        (PendingResponse.next? branch.counts)
  | commands {branch : BranchDraft} {list : ListDraft} :
      Holds row (.commands branch list) .command (some (branch.pending row)) (some (list.pending none))
  | argument {branch : BranchDraft} {list : ListDraft} {command} :
      Holds row (.argument branch list command) .argument (some (branch.pending row))
        (some (list.pending (some command)))

theorem Position.Holds.isSome_eq {row : List Nat} {position : Position} {mode : Mode}
    {branch : Option PendingBranch} {response : Option PendingResponse}
    (holds : position.Holds row mode branch response) : response.isSome = position.leavesTorn := by
  cases holds with
  | header rest => exact rest
  | message rest => exact rest
  | responses => exact PendingResponse.isSome_next? _
  | commands => rfl
  | argument => rfl

theorem Position.Holds.any_opened {row : List Nat} {position : Position} {mode : Mode}
    {branch : Option PendingBranch} {response : Option PendingResponse}
    (holds : position.Holds row mode branch response) : branch.any PendingBranch.opened = true := by
  cases holds <;> rfl

/-- A builder and a draft that have read the same text. -/
inductive Draft.Mirrors (total : Counts) : Builder → Draft → Prop
  | title {quoted buffer opened} :
      Mirrors total
        ⟨.title, quoted, buffer, opened, none, .sized .branches total.length, none, none⟩
        ⟨quoted, buffer, .title opened⟩
  | between {quoted buffer title branches left torn response} (rest : response.isSome = torn) :
      Mirrors total
        ⟨.header, quoted, buffer, false, some title, ⟨.branches, total.length, branches⟩,
          PendingBranch.next? left, response⟩
        ⟨quoted, buffer, .body title branches left (.between torn)⟩
  | inside {quoted buffer title branches row later position mode branch response}
      (holds : position.Holds row mode branch response) :
      Mirrors total
        ⟨mode, quoted, buffer, false, some title, ⟨.branches, total.length, branches⟩, branch, response⟩
        ⟨quoted, buffer, .body title branches (row :: later) position⟩

section Allocation

variable {total left : Counts} {branches : List Branch} {row : List Nat} {mode : Mode} {quoted : Bool}
  {buffer : Buffer} {titleOpen : Bool} {title : Option String} {branch : Option PendingBranch}
  {response : Option PendingResponse}

theorem Builder.allocateBranch_eq (filled : total = branches.reverse.map Branch.counts ++ left)
    (mark : Mark) :
    (Builder.mk mode quoted buffer titleOpen title ⟨.branches, total.length, branches⟩ branch
        response).allocateBranch mark total =
      .ok ⟨mode, quoted, buffer, titleOpen, title, ⟨.branches, total.length, branches⟩,
        PendingBranch.next? left, response⟩ := by
  subst filled
  cases left with
  | nil => simp [allocateBranch, Slots.remaining, PendingBranch.next?]
  | cons row later =>
    simp [allocateBranch, Slots.remaining, Counts.lists?, PendingBranch.next?]

theorem Builder.allocateResponse_eq {pending : PendingBranch} {responses : List Response}
    {counts : List Nat} (sized : pending.responses = ⟨.responses, row.length, responses⟩)
    (counted : row = responses.reverse.map (fun response => response.directives.length) ++ counts)
    {later : Counts} (filled : total = branches.reverse.map Branch.counts ++ row :: later) (mark : Mark) :
    (Builder.mk mode quoted buffer titleOpen title ⟨.branches, total.length, branches⟩ (some pending)
        response).allocateResponse mark total =
      .ok ⟨mode, quoted, buffer, titleOpen, title, ⟨.branches, total.length, branches⟩, some pending,
        PendingResponse.next? counts⟩ := by
  subst filled counted
  cases counts with
  | nil => simp [allocateResponse, sized, Slots.remaining, PendingResponse.next?]
  | cons counted rest =>
    simp [allocateResponse, sized, Slots.remaining, Counts.commands?, PendingResponse.next?]

end Allocation

theorem Slots.push_eq {slots : Slots α} (room : slots.items.length < slots.capacity) (item : α) :
    slots.push item = .ok { slots with items := item :: slots.items } := if_neg (Nat.ne_of_lt room)

theorem BranchDraft.complete_pending {branch : BranchDraft} {row : List Nat} (counted : row = branch.row [])
    (mark : Mark) :
    (branch.pending row).complete mark =
      if branch.responses.isEmpty then refuse mark (.noResponses branch.header)
      else .ok ⟨branch.header, branch.message, branch.responses.reverse⟩ := by
  have full : branch.responses.length = row.length := by simp [counted, BranchDraft.row]
  simp only [PendingBranch.complete, pending, Slots.finish, full, ne_eq, not_true_eq_false, ↓reduceIte]
  rfl

theorem ListDraft.complete_pending (list : ListDraft) (mark : Mark) :
    (list.pending none).complete mark =
      if list.directives.length ≠ list.counted then
        .error ⟨.draft (.underfull .commands list.counted list.directives.length), none⟩
      else .ok ⟨list.response, list.directives.reverse⟩ := by
  simp only [PendingResponse.complete, pending, Slots.finish, List.length_map]
  split
  · rfl
  · refine Response.ofLists?_ok_iff.mpr ⟨?_, rfl, ?_, ?_⟩
    · simp
    · exact List.map_reverse
    · exact List.map_reverse

theorem ListDraft.endCommand_pending (list : ListDraft) (mark : Mark) (command : Command)
    (argument : String) :
    (list.pending (some command)).endCommand mark argument =
      if list.directives.length = list.counted then
        .error ⟨.draft (.overfull .commands list.counted), none⟩
      else .ok ({ list with directives := ⟨command, argument⟩ :: list.directives }.pending none) := by
  simp only [PendingResponse.endCommand, pending, Slots.push, List.length_map]
  split <;> rfl

theorem Stage.Fills.filled {total left : Counts} {title : String} {branches : List Branch}
    {position : Position} (fills : (Stage.body title branches left position).Fills total) :
    total = branches.reverse.map Branch.counts ++ left := by
  cases fills with
  | between filled => exact filled
  | header filled => exact filled
  | message filled => exact filled
  | responses counted filled => exact filled
  | commands counted within filled => exact filled
  | argument counted within filled => exact filled

theorem Builder.read_outside {builder : Builder} {mark : Mark} (unquoted : mark.char ≠ '"')
    (outside : builder.quoted = false) (options : Options) (counts : Counts) :
    builder.read options counts mark =
      match mark.char with
      | '[' => builder.openTitle mark
      | ']' => builder.closeTitle mark counts
      | '{' => builder.openBranch mark
      | '}' => builder.closeBranch mark counts
      | '(' => builder.openList mark
      | ')' => builder.closeList mark counts
      | ';' => builder.endCommand mark
      | _ => builder.readPlain options mark := by
  have inactive : ¬builder.quoted = true := by simp [outside]
  exact (if_neg unquoted).trans (if_neg inactive)

theorem Builder.read_free {builder : Builder} {mark : Mark} (free : isDelimiter mark.char = false)
    (outside : builder.quoted = false) (options : Options) (counts : Counts) :
    builder.read options counts mark = builder.readPlain options mark := by
  rw [read_outside (ne_quote_of_free free) outside]
  generalize mark.char = c at free
  split
  case h_8 => rfl
  all_goals exact absurd free (by decide)

namespace Draft

variable {total : Counts} {builder : Builder} {draft : Draft}

theorem openString_mirrors (mirrors : draft.Mirrors total builder) (mark : Mark) :
    Alike Eq (Mirrors total) (builder.openString mark) (draft.openString mark) := by
  cases mirrors with
  | title => exact .ok .title
  | between rest => exact (refuseStray_alike rfl _).bind fun _ _ _ => .ok (.between rest)
  | inside holds =>
    cases holds with
    | header rest => exact (refuseStray_alike rfl _).bind fun _ _ _ => .ok (.inside (.header rest))
    | message rest => exact (refuseStray_alike rfl _).bind fun _ _ _ => .ok (.inside (.message rest))
    | responses => exact (refuseStray_alike rfl _).bind fun _ _ _ => .ok (.inside .responses)
    | commands => exact .ok (.inside .commands)
    | argument => exact .ok (.inside .argument)

theorem closeString_mirrors (mirrors : draft.Mirrors total builder) (fills : draft.stage.Fills total)
    (mark : Mark) :
    Alike Eq (Mirrors total) (builder.closeString mark total) (draft.closeString mark) := by
  cases mirrors with
  | title => exact .ok .title
  | between rest =>
    simp only [Builder.closeString, PendingBranch.any_opened_next?]
    exact refuse_alike rfl _
  | @inside _ _ _ _ row _ _ _ _ _ holds =>
    cases holds with
    | header rest =>
      simp only [Builder.closeString, closeString, Option.any_some, Bool.not_true, Bool.false_eq_true,
        ↓reduceIte]
      split
      · exact refuse_alike rfl _
      · split
        · exact refuse_alike rfl _
        · exact .ok (.inside (.message rest))
    | message rest =>
      cases fills with
      | message filled =>
        have counted : row = ([] : List Response).reverse.map (fun said => said.directives.length) ++ row :=
          rfl
        simp only [Builder.closeString, closeString, Option.map_some]
        rw [Builder.allocateResponse_eq rfl counted filled]
        exact .ok (.inside .responses)
    | responses => exact .ok (.inside .responses)
    | commands => exact .ok (.inside .commands)
    | argument => exact .ok (.inside .argument)

theorem openTitle_mirrors (mirrors : draft.Mirrors total builder) (mark : Mark) :
    Alike Eq (Mirrors total) (builder.openTitle mark) (draft.openTitle mark) := by
  cases mirrors with
  | @title _ _ opened =>
    cases opened with
    | false => exact (refuseStray_alike rfl _).bind fun _ _ _ => .ok .title
    | true => exact refuse_alike rfl _
  | between rest => exact refuse_alike rfl _
  | inside holds => exact refuse_alike rfl _

theorem closeTitle_mirrors (mirrors : draft.Mirrors total builder) (fills : draft.stage.Fills total)
    (mark : Mark) :
    Alike Eq (Mirrors total) (builder.closeTitle mark total) (draft.closeTitle mark total) := by
  unfold Builder.closeTitle closeTitle
  cases mirrors with
  | title =>
    dsimp only
    split
    · exact refuse_alike rfl _
    · have filled : total = ([] : List Branch).reverse.map Branch.counts ++ total := rfl
      rw [Slots.sized, Builder.allocateBranch_eq filled]
      exact .ok (.between rfl)
  | between rest =>
    dsimp only
    split
    · exact refuse_alike rfl _
    · rw [Builder.allocateBranch_eq fills.filled]
      exact .ok (.between rest)
  | inside holds =>
    dsimp only
    split
    · exact refuse_alike rfl _
    · rw [Builder.allocateBranch_eq fills.filled]
      exact .ok (.between holds.isSome_eq)

theorem openBranch_mirrors (mirrors : draft.Mirrors total builder) (mark : Mark) :
    Alike Eq (Mirrors total) (builder.openBranch mark) (draft.openBranch mark) := by
  cases mirrors with
  | title => exact refuse_alike rfl _
  | @between _ _ _ _ left _ _ rest =>
    refine (refuseStray_alike rfl _).bind fun _ _ _ => ?_
    cases left with
    | nil => exact refuse_alike rfl _
    | cons row later => exact .ok (.inside (.header rest))
  | inside holds =>
    refine (refuseStray_alike rfl _).bind fun _ _ _ => ?_
    cases holds <;> exact refuse_alike rfl _

theorem closeBranch_mirrors (mirrors : draft.Mirrors total builder) (fills : draft.stage.Fills total)
    (mark : Mark) :
    Alike Eq (Mirrors total) (builder.closeBranch mark total) (draft.closeBranch mark) := by
  cases mirrors with
  | title => exact refuse_alike rfl _
  | between rest => exact refuse_alike rfl _
  | @inside _ _ _ branches row later _ _ _ _ holds =>
    cases holds with
    | header rest => exact refuse_alike rfl _
    | message rest => exact refuse_alike rfl _
    | commands => exact refuse_alike rfl _
    | argument => exact refuse_alike rfl _
    | @responses branch =>
      cases fills with
      | responses counted filled =>
        simp only [Builder.closeBranch, closeBranch, PendingResponse.isSome_next?]
        split
        · exact refuse_alike rfl _
        · split
          · exact refuse_alike rfl _
          · rename_i complete
            obtain none : branch.counts = [] := by simpa using complete
            rw [none] at counted
            rw [BranchDraft.complete_pending counted]
            split
            · exact refuse_alike rfl _
            · let finished : Branch := ⟨branch.header, branch.message, branch.responses.reverse⟩
              have filled' : total = (finished :: branches).reverse.map Branch.counts ++ later := by
                simp [filled, counted, finished, BranchDraft.row, Branch.counts]
              simp only [ok_bind]
              rw [Slots.push_eq (by simp [filled]), ok_bind, Builder.allocateBranch_eq filled']
              exact .ok (.between (by simp [none]))

theorem openList_mirrors (mirrors : draft.Mirrors total builder) (mark : Mark) :
    Alike Eq (Mirrors total) (builder.openList mark) (draft.openList mark) := by
  cases mirrors with
  | title => exact refuse_alike rfl _
  | between rest => exact refuse_alike rfl _
  | inside holds =>
    cases holds with
    | header rest => exact refuse_alike rfl _
    | message rest => exact refuse_alike rfl _
    | commands => exact refuse_alike rfl _
    | argument => exact refuse_alike rfl _
    | @responses branch =>
      obtain ⟨header, message, responses, counts⟩ := branch
      cases counts with
      | nil => exact refuse_alike rfl _
      | cons counted later =>
        simp only [Builder.openList, openList, PendingResponse.next?, List.head?_cons, Option.map_some]
        split
        · exact refuse_alike rfl _
        · exact .ok (.inside .commands)

theorem closeList_mirrors (mirrors : draft.Mirrors total builder) (fills : draft.stage.Fills total)
    (mark : Mark) :
    Alike Eq (Mirrors total) (builder.closeList mark total) (draft.closeList mark) := by
  cases mirrors with
  | title => exact refuse_alike rfl _
  | between rest => exact refuse_alike rfl _
  | @inside _ _ _ branches row later _ _ _ _ holds =>
    cases holds with
    | header rest => exact refuse_alike rfl _
    | message rest => exact refuse_alike rfl _
    | responses => exact refuse_alike rfl _
    | argument => exact refuse_alike rfl _
    | @commands branch list =>
      cases fills with
      | commands counted within filled =>
        simp only [Builder.closeList, closeList, ListDraft.complete_pending]
        split
        · exact refuse_alike rfl _
        · split
          · exact .error _ .none
          · rename_i complete
            let closed : Response := ⟨list.response, list.directives.reverse⟩
            have counted' : row = (closed :: branch.responses).reverse.map
                (fun response => response.directives.length) ++ branch.counts := by
              simpa [closed, BranchDraft.row, Decidable.not_not.mp complete] using counted
            have room : (branch.pending row).responses.items.length <
                (branch.pending row).responses.capacity := by
              simp [BranchDraft.pending, counted']
            simp only [ok_bind]
            rw [Slots.push_eq room, ok_bind, Builder.allocateResponse_eq rfl counted' filled]
            exact .ok (.inside .responses)

theorem endCommand_mirrors (mirrors : draft.Mirrors total builder) (mark : Mark) :
    Alike Eq (Mirrors total) (builder.endCommand mark) (draft.endCommand mark) := by
  cases mirrors with
  | title => exact refuse_alike rfl _
  | between rest => exact refuse_alike rfl _
  | inside holds =>
    cases holds with
    | header rest => exact refuse_alike rfl _
    | message rest => exact refuse_alike rfl _
    | responses => exact refuse_alike rfl _
    | commands => exact refuse_alike rfl _
    | argument =>
      simp only [Builder.endCommand, endCommand, ListDraft.endCommand_pending, ne_eq, not_true_eq_false,
        ↓reduceIte]
      split
      · exact .error _ .none
      · exact .ok (.inside .commands)

theorem readPlain_mirrors (mirrors : draft.Mirrors total builder) (options : Options) (mark : Mark) :
    Alike Eq (Mirrors total) (builder.readPlain options mark) (draft.readPlain options mark) := by
  cases mirrors with
  | title => simpa [Builder.readPlain, readPlain] using .ok .title
  | between rest => simpa [Builder.readPlain, readPlain] using .ok (.between rest)
  | inside holds =>
    cases holds with
    | header rest => simpa [Builder.readPlain, readPlain] using .ok (.inside (.header rest))
    | message rest => simpa [Builder.readPlain, readPlain] using .ok (.inside (.message rest))
    | responses => simpa [Builder.readPlain, readPlain] using .ok (.inside .responses)
    | commands =>
      by_cases space : mark.char = ' '
      · have blank : Text.isBlank ' ' = true := by decide
        simp only [Builder.readPlain, Builder.separateArgument, readPlain, space, blank, and_self,
          Bool.true_and, ↓reduceIte]
        split
        · exact .ok (.inside .commands)
        · cases options.command? _ with
          | none => exact refuse_alike rfl _
          | some command => exact .ok (.inside .argument)
      · simp only [Builder.readPlain, readPlain, space, true_or, and_true, Bool.and_eq_true,
          ↓reduceIte]
        split <;> exact .ok (.inside .commands)
    | argument =>
      simp only [Builder.readPlain, readPlain, reduceCtorEq, or_true, and_true, and_false, Bool.and_eq_true,
        ↓reduceIte]
      split <;> exact .ok (.inside .argument)

theorem push_mirrors (mirrors : draft.Mirrors total builder) (c : Char) :
    Mirrors total { builder with buffer := builder.buffer.push c }
      { draft with buffer := draft.buffer.push c } := by
  cases mirrors with
  | title => exact .title
  | between rest => exact .between rest
  | inside holds => exact .inside holds

theorem read_mirrors (mirrors : draft.Mirrors total builder) (fills : draft.stage.Fills total)
    (options : Options) (mark : Mark) :
    Alike Eq (Mirrors total) (builder.read options total mark) (draft.read options total mark) := by
  have quoted : builder.quoted = draft.quoted := by cases mirrors <;> rfl
  by_cases quote : mark.char = '"'
  · simp only [Builder.read, read, quote, quoted, ↓reduceIte]
    split
    · exact closeString_mirrors mirrors fills mark
    · exact openString_mirrors mirrors mark
  · cases inside : draft.quoted with
    | true =>
      have pushed := push_mirrors mirrors mark.char
      rw [inside] at quoted
      simp only [Builder.read, read, quote, quoted, inside, ↓reduceIte] at pushed ⊢
      exact .ok pushed
    | false =>
      rw [inside] at quoted
      rcases isDelimiter_cases mark.char with
        same | char | char | char | char | char | char | char | free
      · exact absurd same quote
      case inr.inr.inr.inr.inr.inr.inr.inr =>
        rw [read_free free inside, Builder.read_free free quoted]
        exact readPlain_mirrors mirrors options mark
      all_goals rw [read_outside quote inside, Builder.read_outside quote quoted, char]
      · exact endCommand_mirrors mirrors mark
      · exact openTitle_mirrors mirrors mark
      · exact closeTitle_mirrors mirrors fills mark
      · exact openBranch_mirrors mirrors mark
      · exact closeBranch_mirrors mirrors fills mark
      · exact openList_mirrors mirrors mark
      · exact closeList_mirrors mirrors fills mark

/-- The draft fills its counts all the way, so every reading of the builder finds it in a stage that does. -/
theorem foldlM_mirrors (mirrors : draft.Mirrors total builder) (fills : draft.stage.Fills total)
    (options : Options) (marks : List Mark) :
    Alike Eq (fun builder draft => draft.Mirrors total builder ∧ draft.stage.Fills total)
      (marks.foldlM (Builder.read options total) builder) (marks.foldlM (read options total) draft) := by
  refine Alike.foldlM ?_ (List.forall₂_refl marks) ⟨mirrors, fills⟩
  rintro mark _ builder draft rfl ⟨mirrors, fills⟩
  have keeps {next : Draft} := @read_fills total draft next mark options fills
  have step := read_mirrors mirrors fills options mark
  generalize builder.read options total mark = outcome at step ⊢
  generalize draft.read options total mark = other at step keeps ⊢
  cases step with
  | ok together => exact .ok ⟨together, keeps rfl⟩
  | error cause marks => exact .error cause marks

theorem finish_eq (mirrors : draft.Mirrors total builder) (fills : draft.stage.Fills total) :
    builder.finish = draft.finish := by
  cases mirrors with
  | title => rfl
  | @between _ _ _ branches left torn _ rest =>
    simp only [Builder.finish, finish, PendingBranch.any_opened_next?, Bool.false_or, rest]
    split
    · rfl
    · cases torn with
      | true => rfl
      | false =>
        have capacity : total.length = branches.length + left.length := by simp [fills.filled]
        cases left with
        | nil => simp [Slots.finish, capacity]
        | cons row later => simp [Slots.finish, capacity]
  | inside holds =>
    simp only [Builder.finish, finish, holds.any_opened, Bool.true_or, ↓reduceIte]
    split
    · rfl
    · cases holds <;> rfl

end Draft

theorem build_eq_draft (options : Options) (counts : Counts) (marks : List Mark) :
    build options counts marks = Draft.build options counts marks := by
  have alike : Alike Eq Eq (build options counts marks) (Draft.build options counts marks) :=
    (Draft.foldlM_mirrors .title .title options marks).bind fun _ _ reached => by
      rw [Draft.finish_eq reached.1 reached.2]
      exact .refl _
  exact alike.eq

theorem build_agrees {marks : List Mark} (closes : Source.Balanced none false (Source.text marks))
    (options : Options) :
    Settled (fun dialogue => dialogue.counts = Source.tally false (Source.text marks))
      (build options (Source.tally false (Source.text marks)) marks) := by
  rw [build_eq_draft]
  exact Draft.build_agrees closes options

theorem counts_of_build {options : Options} {total : Counts} {marks : List Mark} {dialogue : Dialogue}
    (built : build options total marks = .ok dialogue) : dialogue.counts = total := by
  rw [build_eq_draft] at built
  exact Draft.counts_of_build built

end Parley
