import Mathlib.Data.List.Forall2
import Parley.Proofs.Compile.Draft
import Parley.Proofs.Failing

/-! Two readings of one text whose characters stand at different places. A draft never asks where a character
stands, so the readings end alike: in the same draft, or in the same fault at marks that belong together. -/

namespace Parley

/-- Results that are good together, or failures with one cause whose marks are related, if there are any. -/
inductive Alike (related : Mark → Mark → Prop) (good : α → β → Prop) :
    Except Failure α → Except Failure β → Prop
  | ok (together : good value other) : Alike related good (.ok value) (.ok other)
  | error (cause : Cause) (marks : Option.Rel related mark mark') :
      Alike related good (.error ⟨cause, mark⟩) (.error ⟨cause, mark'⟩)

namespace Alike

variable {related : Mark → Mark → Prop}

theorem bind {good : α → β → Prop} {better : γ → δ → Prop} {first : Except Failure α}
    {other : Except Failure β} {next : α → Except Failure γ} {next' : β → Except Failure δ}
    (alike : Alike related good first other)
    (later : ∀ value value', good value value' → Alike related better (next value) (next' value')) :
    Alike related better (first >>= next) (other >>= next') := by
  cases alike with
  | ok together => exact later _ _ together
  | error cause marks => exact .error cause marks

/-- Steps that keep two states together on related marks keep them together over the whole text. -/
theorem foldlM {good : α → β → Prop} {step : α → Mark → Except Failure α}
    {step' : β → Mark → Except Failure β}
    (keeps : ∀ mark mark' value value', related mark mark' → good value value' →
      Alike related good (step value mark) (step' value' mark'))
    {marks others : List Mark} (read : List.Forall₂ related marks others) {start : α} {start' : β}
    (together : good start start') :
    Alike related good (marks.foldlM step start) (others.foldlM step' start') := by
  induction read generalizing start start' with
  | nil => exact .ok together
  | cons first _ ih =>
    rw [List.foldlM_cons, List.foldlM_cons]
    exact (keeps _ _ _ _ first together).bind fun _ _ => ih

theorem refl_of_unmarked {outcome : Except Failure α}
    (unmarked : ∀ failure, outcome = .error failure → failure.mark = none) :
    Alike related Eq outcome outcome := by
  cases outcome with
  | ok value => exact .ok rfl
  | error failure =>
    obtain ⟨cause, mark⟩ := failure
    obtain rfl : mark = none := unmarked _ rfl
    exact .error cause .none

theorem toOption_eq {first other : Except Failure α} (alike : Alike related Eq first other) :
    first.toOption = other.toOption := by
  cases alike with
  | ok together => rw [together]
  | error _ _ => rfl

theorem refl (outcome : Except Failure α) : Alike Eq Eq outcome outcome := by
  cases outcome with
  | ok value => exact .ok rfl
  | error failure =>
    obtain ⟨cause, mark⟩ := failure
    cases mark with
    | none => exact .error cause .none
    | some mark => exact .error cause (.some rfl)

theorem eq {first other : Except Failure α} (alike : Alike Eq Eq first other) : first = other := by
  cases alike with
  | ok together => rw [together]
  | error cause marks =>
    cases marks with
    | none => rfl
    | some same => rw [same]

end Alike

namespace Draft

variable {related : Mark → Mark → Prop} {mark other : Mark}

theorem refuse_alike {good : α → β → Prop} (together : related mark other) (fault : DraftFault) :
    Alike related good (refuse mark fault) (refuse other fault) := .error _ (.some together)

theorem refuseStray_alike (together : related mark other) (buffer : Buffer) :
    Alike related Eq (refuseStray mark buffer) (refuseStray other buffer) := by
  unfold refuseStray
  split
  · exact .ok rfl
  · exact refuse_alike together _

theorem openString_alike (together : related mark other) (draft : Draft) :
    Alike related Eq (draft.openString mark) (draft.openString other) := by
  unfold openString
  split
  case h_5 => exact .ok rfl
  all_goals exact (refuseStray_alike together _).bind fun _ _ _ => .ok rfl

theorem closeString_alike (together : related mark other) (draft : Draft) :
    Alike related Eq (draft.closeString mark) (draft.closeString other) := by
  unfold closeString
  split
  · exact refuse_alike together _
  · dsimp only
    split
    · exact refuse_alike together _
    · split
      · exact refuse_alike together _
      · exact .ok rfl
  · exact .ok rfl
  · exact .ok rfl
  · exact .ok rfl
  · exact .ok rfl
  · exact .ok rfl

theorem openTitle_alike (together : related mark other) (draft : Draft) :
    Alike related Eq (draft.openTitle mark) (draft.openTitle other) := by
  unfold openTitle
  split
  · exact (refuseStray_alike together _).bind fun _ _ _ => .ok rfl
  · exact refuse_alike together _

theorem closeTitle_alike (together : related mark other) (counts : Counts) (draft : Draft) :
    Alike related Eq (draft.closeTitle mark counts) (draft.closeTitle other counts) := by
  unfold closeTitle
  split
  · exact refuse_alike together _
  · exact .ok rfl

theorem openBranch_alike (together : related mark other) (draft : Draft) :
    Alike related Eq (draft.openBranch mark) (draft.openBranch other) := by
  unfold openBranch
  split
  · exact refuse_alike together _
  · refine (refuseStray_alike together _).bind fun _ _ _ => ?_
    split
    · exact .ok rfl
    · exact refuse_alike together _

theorem closeBranch_alike (together : related mark other) (draft : Draft) :
    Alike related Eq (draft.closeBranch mark) (draft.closeBranch other) := by
  unfold closeBranch
  split
  case h_7 =>
    split
    · exact refuse_alike together _
    · split
      · exact refuse_alike together _
      · split
        · exact refuse_alike together _
        · exact .ok rfl
  all_goals exact refuse_alike together _

theorem openList_alike (together : related mark other) (draft : Draft) :
    Alike related Eq (draft.openList mark) (draft.openList other) := by
  unfold openList
  split
  case h_7 =>
    split
    · exact refuse_alike together _
    · split
      · exact refuse_alike together _
      · exact .ok rfl
  all_goals exact refuse_alike together _

theorem closeList_alike (together : related mark other) (draft : Draft) :
    Alike related Eq (draft.closeList mark) (draft.closeList other) := by
  unfold closeList
  split
  · split
    · exact refuse_alike together _
    · split
      · exact .error _ .none
      · exact .ok rfl
  · exact refuse_alike together _
  · exact refuse_alike together _

theorem endCommand_alike (together : related mark other) (draft : Draft) :
    Alike related Eq (draft.endCommand mark) (draft.endCommand other) := by
  unfold endCommand
  split
  · split
    · exact .error _ .none
    · exact .ok rfl
  · exact refuse_alike together _

theorem readPlain_alike (together : related mark other) (same : mark.char = other.char)
    (options : Options) (draft : Draft) :
    Alike related Eq (draft.readPlain options mark) (draft.readPlain options other) := by
  unfold readPlain
  rw [same]
  split
  · split
    · exact .ok rfl
    · split
      · split
        · exact refuse_alike together _
        · exact .ok rfl
      · exact .ok rfl
  · split
    · exact .ok rfl
    · exact .ok rfl
  · exact .ok rfl

/-- What one character makes of a draft does not depend on where it stands. -/
theorem read_alike (together : related mark other) (same : mark.char = other.char) (options : Options)
    (counts : Counts) (draft : Draft) :
    Alike related Eq (draft.read options counts mark) (draft.read options counts other) := by
  unfold read
  rw [same]
  split
  · split
    · exact closeString_alike together draft
    · exact openString_alike together draft
  · split
    · exact .ok rfl
    · split
      · exact openTitle_alike together draft
      · exact closeTitle_alike together counts draft
      · exact openBranch_alike together draft
      · exact closeBranch_alike together draft
      · exact openList_alike together draft
      · exact closeList_alike together draft
      · exact endCommand_alike together draft
      · exact readPlain_alike together same options draft

theorem finish_unmarked {draft : Draft} {failure : Failure} (failed : draft.finish = .error failure) :
    failure.mark = none := by
  unfold finish at failed
  split at failed
  · cases failed
    rfl
  · split at failed
    · cases failed
      rfl
    · split at failed
      · cases failed
        rfl
      · split at failed
        · cases failed
          rfl
        · unfold Dialogue.ofBranches? at failed
          split at failed
          · cases failed
            rfl
          · cases failed

theorem build_alike {related : Mark → Mark → Prop} {marks others : List Mark}
    (same : ∀ mark other, related mark other → mark.char = other.char)
    (together : List.Forall₂ related marks others) (options : Options) (counts : Counts) :
    Alike related Eq (build options counts marks) (build options counts others) := by
  refine Alike.bind (Alike.foldlM ?_ together rfl) ?_
  · rintro mark other draft _ belong rfl
    exact draft.read_alike belong (same mark other belong) options counts
  · rintro draft _ rfl
    exact .refl_of_unmarked fun _ => finish_unmarked

end Draft

end Parley
