import Parley.Proofs.Source.Layout

/-! Balanced texts side by side. A text that is balanced on its own tells what is open before it, namely
nothing, so whatever stands before it is balanced if the whole is; and behind it layout is read as on a new
page. -/

namespace Parley

/-- What is open before a character follows from the character and what is open behind it. -/
theorem Region.Turn.eq_before {c : Char} (turn : Region.Turn scope c after)
    (other : Region.Turn before c after) : scope = before := by
  cases turn with
  | plain free => exact (Region.turn_plain_iff free).mp other
  | _ =>
    cases other with
    | plain free => exact absurd free (by decide)
    | _ => rfl

namespace Source

/-- A text that closes all that is open tells what that is. -/
theorem Balanced.eq_before {scope before : Option Region} {quoted inString : Bool} {text : List Char}
    (closes : Balanced scope quoted text) (other : Balanced before inString text) :
    scope = before ∧ quoted = inString := by
  induction closes generalizing before inString with
  | done =>
    cases other
    exact ⟨rfl, rfl⟩
  | quote _ ih =>
    obtain ⟨same, flipped⟩ := ih (balanced_quote.mp other)
    exact ⟨same, Bool.not_inj flipped⟩
  | inside unquoted _ ih =>
    cases inString with
    | true => exact ih ((balanced_inside unquoted).mp other)
    | false =>
      obtain ⟨after, _, later⟩ := (balanced_outside unquoted).mp other
      cases (ih later).2
  | outside turn _ ih =>
    cases inString with
    | true => cases (ih ((balanced_inside turn.ne_quote).mp other)).2
    | false =>
      obtain ⟨after, again, later⟩ := (balanced_outside turn.ne_quote).mp other
      obtain ⟨rfl, _⟩ := ih later
      exact ⟨turn.eq_before again, rfl⟩

theorem Balanced.append {scope : Option Region} {quoted : Bool} {front back : List Char}
    (closes : Balanced scope quoted front) (later : Balanced none false back) :
    Balanced scope quoted (front ++ back) := by
  induction closes with
  | done => exact later
  | quote _ ih => exact .quote ih
  | inside unquoted _ ih => exact .inside unquoted ih
  | outside turn _ ih => exact .outside turn ih

/-- What is balanced may be taken off the end of a text. -/
theorem Balanced.of_append {scope : Option Region} {quoted : Bool} {front back : List Char}
    (whole : Balanced scope quoted (front ++ back)) (closes : Balanced none false back) :
    Balanced scope quoted front := by
  induction front generalizing scope quoted with
  | nil =>
    obtain ⟨rfl, rfl⟩ := closes.eq_before whole
    exact .done
  | cons c front ih =>
    rw [List.cons_append] at whole
    by_cases quote : c = '"'
    · rw [quote] at whole ⊢
      exact .quote (ih (balanced_quote.mp whole))
    · cases quoted with
      | true => exact .inside quote (ih ((balanced_inside quote).mp whole))
      | false =>
        obtain ⟨after, turn, later⟩ := (balanced_outside quote).mp whole
        exact .outside turn (ih later)

end Source

namespace Layout

/-- What of the open regions matters to the layout. -/
def listening : Option Region → Option Region
  | some .title => some .title
  | some .commands => some .commands
  | some .branch | none => none

theorem after_turn {c : Char} (turn : Region.Turn scope c behind) :
    after ⟨false, listening scope⟩ c = ⟨false, listening behind⟩ := by
  cases turn with
  | plain free => exact after_free free _
  | _ => rfl

/-- The layout behind a balanced text is that of a new page. -/
theorem foldl_after_of_balanced {scope : Option Region} {quoted : Bool} {text : List Char}
    (closes : Source.Balanced scope quoted text) :
    text.foldl after ⟨quoted, listening scope⟩ = start := by
  induction closes with
  | done => rfl
  | quote _ ih => exact ih
  | inside unquoted _ ih =>
    rw [List.foldl_cons, after_inside unquoted]
    exact ih
  | outside turn _ ih =>
    rw [List.foldl_cons, after_turn turn]
    exact ih

theorem keep_append (layout : Layout) (front back : List Char) :
    layout.keep (front ++ back) = layout.keep front ++ (front.foldl after layout).keep back := by
  induction front generalizing layout with
  | nil => rfl
  | cons c front ih =>
    rw [List.cons_append, keep, keep, ih, List.foldl_cons]
    split
    · rfl
    · rfl

/-- Behind a balanced text layout is read as if it stood alone. -/
theorem keep_append_of_balanced {front : List Char} (closes : Source.Balanced none false front)
    (back : List Char) : start.keep (front ++ back) = start.keep front ++ start.keep back := by
  have renewed : front.foldl after start = start := foldl_after_of_balanced closes
  rw [keep_append, renewed]

theorem mem_keep {c : Char} {text : List Char} (visible : Text.isBlank c = false) (member : c ∈ text)
    (layout : Layout) : c ∈ layout.keep text := by
  induction text generalizing layout with
  | nil => cases member
  | cons first rest ih =>
    rw [keep]
    rcases List.mem_cons.mp member with same | later
    · subst same
      have kept : layout.keeps c = true := by simp [keeps, visible]
      rw [if_pos kept]
      exact List.mem_cons_self
    · split
      · exact List.mem_cons_of_mem first (ih later _)
      · exact ih later _

end Layout

end Parley
