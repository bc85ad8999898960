import Parley.Proofs.Compile.Consistency

/-! Building with the counts of another text. A balanced text is read alike whatever was counted, until a
table is full too early or closed too early, and that is refused at once. -/

namespace Parley

/-- Two outcomes that agree, unless one of them is refused for what was counted. -/
inductive Rivals (good : α → β → Prop) : Except Failure α → Except Failure β → Prop
  | refused {failure other} (full : failure.code = "QDL_BUILD_CAPACITY") : Rivals good (.error failure) other
  | otherRefused {failure other} (full : failure.code = "QDL_BUILD_CAPACITY") :
      Rivals good other (.error failure)
  | failed (failure) : Rivals good (.error failure) (.error failure)
  | went {value other} (reached : good value other) : Rivals good (.ok value) (.ok other)

theorem Rivals.bind {good : α → β → Prop} {better : γ → δ → Prop} {first : Except Failure α}
    {second : Except Failure β} {next : α → Except Failure γ} {other : β → Except Failure δ}
    (rivals : Rivals good first second)
    (later : ∀ value twin, good value twin → Rivals better (next value) (other twin)) :
    Rivals better (first >>= next) (second >>= other) := by
  cases rivals with
  | refused full => exact .refused full
  | otherRefused full => exact .otherRefused full
  | failed failure => exact .failed failure
  | went reached => exact later _ _ reached

theorem Rivals.refl (outcome : Except Failure α) : Rivals Eq outcome outcome := by
  cases outcome with
  | error failure => exact .failed failure
  | ok value => exact .went rfl

/-- Stages that differ in nothing but what is counted and not yet filled. -/
inductive Stage.Parallel : Option Region → Stage → Stage → Prop
  | before : Parallel none (.title false) (.title false)
  | title : Parallel (some .title) (.title true) (.title true)
  | between {heading branches left other} :
      Parallel none (.body heading branches left (.between false))
        (.body heading branches other (.between false))
  | header {heading branches left other} :
      Parallel (some .branch) (.body heading branches left (.header false))
        (.body heading branches other (.header false))
  | message {heading branches left other header} :
      Parallel (some .branch) (.body heading branches left (.message false header))
        (.body heading branches other (.message false header))
  | responses {heading branches left other header message responses counts others} :
      Parallel (some .branch) (.body heading branches left (.responses ⟨header, message, responses, counts⟩))
        (.body heading branches other (.responses ⟨header, message, responses, others⟩))
  | commands {heading branches left other header message responses counts others}
      {response directives counted also} :
      Parallel (some .commands)
        (.body heading branches left
          (.commands ⟨header, message, responses, counts⟩ ⟨response, directives, counted⟩))
        (.body heading branches other
          (.commands ⟨header, message, responses, others⟩ ⟨response, directives, also⟩))
  | argument {heading branches left other header message responses counts others}
      {response directives counted also command} :
      Parallel (some .commands)
        (.body heading branches left
          (.argument ⟨header, message, responses, counts⟩ ⟨response, directives, counted⟩ command))
        (.body heading branches other
          (.argument ⟨header, message, responses, others⟩ ⟨response, directives, also⟩ command))

namespace Draft

/-- Drafts at parallel stages that hold the same text. -/
inductive Parallel (scope : Option Region) (quoted : Bool) : Draft → Draft → Prop
  | intro (buffer : Buffer) {stage other : Stage} (stages : stage.Parallel scope other) :
      Parallel scope quoted ⟨quoted, buffer, stage⟩ ⟨quoted, buffer, other⟩

variable {counts others : Counts} {scope after : Option Region} {quoted : Bool} {buffer : Buffer}
  {stage twin : Stage} {draft other : Draft}

theorem refuse_parallel {good : α → β → Prop} (mark : Mark) (fault : DraftFault) :
    Rivals good (refuse mark fault) (refuse mark fault) := .failed _

theorem refuseStray_parallel (mark : Mark) :
    Rivals (fun _ _ => True) (refuseStray mark buffer) (refuseStray mark buffer) := by
  unfold refuseStray
  split
  · exact .went trivial
  · exact refuse_parallel mark _

theorem openString_parallel (parallel : draft.Parallel scope quoted other) (mark : Mark) :
    Rivals (Parallel scope true) (draft.openString mark) (other.openString mark) := by
  obtain ⟨buffer, stages⟩ := parallel
  have opened {stage other : Stage} (stages : stage.Parallel scope other) :
      Rivals (Parallel scope true) (.ok ⟨true, buffer, stage⟩) (.ok ⟨true, buffer, other⟩) :=
    .went (.intro buffer stages)
  cases stages with
  | before => exact opened .before
  | title => exact opened .title
  | between => exact (refuseStray_parallel mark).bind fun _ _ _ => opened .between
  | header => exact (refuseStray_parallel mark).bind fun _ _ _ => opened .header
  | message => exact (refuseStray_parallel mark).bind fun _ _ _ => opened .message
  | responses => exact (refuseStray_parallel mark).bind fun _ _ _ => opened .responses
  | commands => exact opened .commands
  | argument => exact opened .argument

theorem closeString_parallel (parallel : draft.Parallel scope quoted other) (mark : Mark) :
    Rivals (Parallel scope false) (draft.closeString mark) (other.closeString mark) := by
  obtain ⟨buffer, stages⟩ := parallel
  cases stages with
  | before => exact .went (.intro buffer .before)
  | title => exact .went (.intro buffer .title)
  | between => exact refuse_parallel mark _
  | header =>
    simp only [closeString]
    split
    · exact refuse_parallel mark _
    · split
      · exact refuse_parallel mark _
      · exact .went (.intro .empty .message)
  | message => exact .went (.intro .empty .responses)
  | responses => exact .went (.intro buffer .responses)
  | commands => exact .went (.intro buffer .commands)
  | argument => exact .went (.intro buffer.hold .argument)

theorem openTitle_parallel (parallel : draft.Parallel none quoted other) (mark : Mark) :
    Rivals (Parallel (some .title) quoted) (draft.openTitle mark) (other.openTitle mark) := by
  obtain ⟨buffer, stages⟩ := parallel
  cases stages with
  | before => exact (refuseStray_parallel mark).bind fun _ _ _ => .went (.intro buffer .title)
  | between => exact refuse_parallel mark _

theorem closeTitle_parallel (parallel : draft.Parallel (some .title) quoted other) (mark : Mark) :
    Rivals (Parallel none quoted) (draft.closeTitle mark counts) (other.closeTitle mark others) := by
  obtain ⟨buffer, stages⟩ := parallel
  cases stages with
  | title =>
    simp only [closeTitle]
    split
    · exact refuse_parallel mark _
    · exact .went (.intro .empty .between)

theorem openBranch_parallel (parallel : draft.Parallel none quoted other) (mark : Mark) :
    Rivals (Parallel (some .branch) quoted) (draft.openBranch mark) (other.openBranch mark) := by
  obtain ⟨buffer, stages⟩ := parallel
  cases stages with
  | before => exact refuse_parallel mark _
  | @between heading branches left also =>
    refine (refuseStray_parallel mark).bind fun _ _ _ => ?_
    cases left with
    | nil => exact .refused rfl
    | cons =>
      cases also with
      | nil => exact .otherRefused rfl
      | cons => exact .went (.intro buffer .header)

theorem closeBranch_parallel (parallel : draft.Parallel (some .branch) quoted other) (mark : Mark) :
    Rivals (Parallel none quoted) (draft.closeBranch mark) (other.closeBranch mark) := by
  obtain ⟨buffer, stages⟩ := parallel
  cases stages with
  | header => exact refuse_parallel mark _
  | message => exact refuse_parallel mark _
  | @responses _ _ _ _ _ _ responses counts others =>
    simp only [closeBranch]
    split
    · exact refuse_parallel mark _
    · cases counts with
      | cons => exact .refused rfl
      | nil =>
        cases others with
        | cons => exact .otherRefused rfl
        | nil =>
          simp only [List.isEmpty_nil, Bool.not_true, Bool.false_eq_true, ↓reduceIte]
          split
          · exact refuse_parallel mark _
          · exact .went (.intro buffer .between)

theorem openList_parallel (parallel : draft.Parallel (some .branch) quoted other) (mark : Mark) :
    Rivals (Parallel (some .commands) quoted) (draft.openList mark) (other.openList mark) := by
  obtain ⟨buffer, stages⟩ := parallel
  cases stages with
  | header => exact refuse_parallel mark _
  | message => exact refuse_parallel mark _
  | @responses _ _ _ _ _ _ responses counts others =>
    cases counts with
    | nil => exact .refused rfl
    | cons =>
      cases others with
      | nil => exact .otherRefused rfl
      | cons =>
        simp only [openList]
        split
        · exact refuse_parallel mark _
        · exact .went (.intro .empty .commands)

theorem readPlain_parallel (parallel : draft.Parallel scope quoted other) (options : Options)
    (mark : Mark) :
    Rivals (Parallel scope quoted) (draft.readPlain options mark) (other.readPlain options mark) := by
  obtain ⟨buffer, stages⟩ := parallel
  cases stages with
  | before => exact .went (.intro _ .before)
  | title => exact .went (.intro _ .title)
  | between => exact .went (.intro _ .between)
  | header => exact .went (.intro _ .header)
  | message => exact .went (.intro _ .message)
  | responses => exact .went (.intro _ .responses)
  | commands =>
    simp only [readPlain]
    split
    · exact .went (.intro buffer .commands)
    · split
      · split
        · exact refuse_parallel mark _
        · exact .went (.intro .empty .argument)
      · exact .went (.intro _ .commands)
  | argument =>
    simp only [readPlain]
    split
    · exact .went (.intro buffer .argument)
    · exact .went (.intro _ .argument)

theorem endCommand_parallel (parallel : draft.Parallel (some .commands) quoted other) (mark : Mark) :
    Rivals (Parallel (some .commands) quoted) (draft.endCommand mark) (other.endCommand mark) := by
  obtain ⟨buffer, stages⟩ := parallel
  cases stages with
  | commands => exact refuse_parallel mark _
  | argument =>
    simp only [endCommand]
    split
    · exact .refused rfl
    · split
      · exact .otherRefused rfl
      · exact .went (.intro .empty .commands)

theorem closeList_parallel (parallel : draft.Parallel (some .commands) quoted other) (mark : Mark) :
    Rivals (Parallel (some .branch) quoted) (draft.closeList mark) (other.closeList mark) := by
  obtain ⟨buffer, stages⟩ := parallel
  cases stages with
  | commands =>
    simp only [closeList]
    split
    · exact refuse_parallel mark _
    · split
      · exact .refused rfl
      · split
        · exact .otherRefused rfl
        · exact .went (.intro buffer .responses)
  | argument => exact refuse_parallel mark _

theorem read_quote_parallel (parallel : draft.Parallel scope quoted other) {mark : Mark}
    (quote : mark.char = '"') (options : Options) :
    Rivals (Parallel scope (!quoted)) (draft.read options counts mark) (other.read options others mark) := by
  have sides : draft.quoted = quoted ∧ other.quoted = quoted := by cases parallel; exact ⟨rfl, rfl⟩
  cases quoted with
  | true => simpa [read, quote, sides] using closeString_parallel parallel mark
  | false => simpa [read, quote, sides] using openString_parallel parallel mark

theorem read_inside_parallel (parallel : draft.Parallel scope true other) {mark : Mark}
    (unquoted : mark.char ≠ '"') (options : Options) :
    Rivals (Parallel scope true) (draft.read options counts mark) (other.read options others mark) := by
  obtain ⟨buffer, stages⟩ := parallel
  simp only [read, unquoted, ↓reduceIte]
  exact .went (.intro _ stages)

theorem read_outside_parallel (parallel : draft.Parallel scope false other) {mark : Mark}
    (turn : Region.Turn scope mark.char after) (options : Options) :
    Rivals (Parallel after false) (draft.read options counts mark) (other.read options others mark) := by
  have sides : draft.quoted = false ∧ other.quoted = false := by cases parallel; exact ⟨rfl, rfl⟩
  rw [read_outside turn.ne_quote sides.1, read_outside turn.ne_quote sides.2]
  generalize mark.char = c at turn
  cases turn with
  | openTitle => exact openTitle_parallel parallel mark
  | closeTitle => exact closeTitle_parallel parallel mark
  | openBranch => exact openBranch_parallel parallel mark
  | closeBranch => exact closeBranch_parallel parallel mark
  | openList => exact openList_parallel parallel mark
  | closeList => exact closeList_parallel parallel mark
  | endCommand => exact endCommand_parallel parallel mark
  | plain free =>
    split
    case h_8 => exact readPlain_parallel parallel options mark
    all_goals exact absurd free (by decide)

/-- Two drafts at parallel stages stay so while a balanced text is read, each with counts of its own. -/
theorem foldlM_parallel {marks : List Mark} (closes : Source.Balanced scope quoted (Source.text marks))
    (parallel : draft.Parallel scope quoted other) (options : Options) :
    Rivals (Parallel none false) (marks.foldlM (read options counts) draft)
      (marks.foldlM (read options others) other) := by
  induction marks generalizing scope quoted draft other with
  | nil =>
    cases closes with
    | done => exact .went parallel
  | cons mark rest ih =>
    rw [List.foldlM_cons, List.foldlM_cons]
    have spelled : Source.text (mark :: rest) = mark.char :: Source.text rest := rfl
    rw [spelled] at closes
    by_cases quote : mark.char = '"'
    · rw [quote, Source.balanced_quote] at closes
      exact (read_quote_parallel parallel quote options).bind fun _ _ reached => ih closes reached
    · cases quoted with
      | true =>
        rw [Source.balanced_inside quote] at closes
        exact (read_inside_parallel parallel quote options).bind fun _ _ reached => ih closes reached
      | false =>
        rw [Source.balanced_outside quote] at closes
        obtain ⟨after, turn, closes⟩ := closes
        exact (read_outside_parallel parallel turn options).bind fun _ _ reached => ih closes reached

theorem finish_parallel (parallel : draft.Parallel none quoted other) : Rivals Eq draft.finish other.finish := by
  obtain ⟨buffer, stages⟩ := parallel
  cases stages with
  | before => exact .failed _
  | @between heading branches left also =>
    simp only [finish]
    split
    · exact .failed _
    · cases left with
      | cons => exact .refused rfl
      | nil =>
        cases also with
        | cons => exact .otherRefused rfl
        | nil => exact .refl _

end Draft

/-- Two builds of one balanced text, whatever was counted for each. -/
theorem build_rivals {marks : List Mark} (closes : Source.Balanced none false (Source.text marks))
    (options : Options) (counts others : Counts) :
    Rivals Eq (build options counts marks) (build options others marks) := by
  rw [build_eq_draft, build_eq_draft]
  exact (Draft.foldlM_parallel closes (.intro .empty .before) options).bind fun _ _ reached =>
    Draft.finish_parallel reached

/-- Own counts never refuse a table, so the other counts do, or they build as the own ones. -/
theorem build_foreign {marks : List Mark} (closes : Source.Balanced none false (Source.text marks))
    (options : Options) (foreign : Counts) :
    (∃ failure, build options foreign marks = .error failure ∧ failure.code = "QDL_BUILD_CAPACITY") ∨
      build options foreign marks = build options (Source.tally false (Source.text marks)) marks := by
  have rivals := build_rivals closes options foreign (Source.tally false (Source.text marks))
  have settled := build_agrees closes options
  generalize build options foreign marks = outcome at rivals ⊢
  generalize build options (Source.tally false (Source.text marks)) marks = own at rivals settled ⊢
  cases rivals with
  | refused full => exact .inl ⟨_, rfl, full⟩
  | @otherRefused failure _ full =>
    obtain ⟨fault, cause, authored⟩ := settled
    have outside := fault.code_of_isAuthored authored
    have full : fault.code = "QDL_BUILD_CAPACITY" := by rwa [Failure.code, cause] at full
    rw [full] at outside
    exact absurd List.mem_cons_self outside
  | failed failure => exact .inr rfl
  | went same => exact .inr (congrArg Except.ok same)

/-- A balanced text built with any counts, of whatever text, is refused unless they are its own; where it fails
it fails for them, or as it does with its own. All the while no table is filled past its capacity, and what is left
of each is its capacity less what it holds. -/
theorem foreign_counts_refused (options : Options) (source : List Char)
    (accepted : Source.checkBalance (Source.locate source) = .ok ()) (foreign : Counts) :
    ∃ marks own, Source.normalize source = .ok marks ∧ Source.count (Source.text marks) = .ok own ∧
      (∀ dialogue, build options foreign marks = .ok dialogue ↔
        foreign = own ∧ build options own marks = .ok dialogue) ∧
      (∀ failure, build options foreign marks = .error failure →
        failure.code = "QDL_BUILD_CAPACITY" ∨ build options own marks = .error failure) ∧
      (∀ before after builder, marks = before ++ after →
        before.foldlM (Builder.read options foreign) (.start foreign) = .ok builder →
        ∀ table ∈ builder.tables,
          table.filled ≤ table.capacity ∧ table.left = table.capacity - table.filled) ∧
      ∀ before after draft, marks = before ++ after →
        before.foldlM (Draft.read options foreign) Draft.start = .ok draft →
        ∀ table ∈ draft.stage.tables foreign,
          table.filled ≤ table.capacity ∧ table.left = table.capacity - table.filled := by
  have normal : Source.normalize source = .ok (Source.strip source) := by
    simp [Source.normalize, accepted]
  have closes := ((Source.normalize_ok_iff source _).mp normal).1
  have same := build_foreign closes options foreign
  refine ⟨_, _, normal, Source.count_of_balanced closes, fun dialogue => ⟨?_, ?_⟩, ?_, ?_, ?_⟩
  · intro built
    rcases same with ⟨failure, failed, -⟩ | same
    · cases failed.symm.trans built
    · have own := same.symm.trans built
      exact ⟨(counts_of_build built).symm.trans (counts_of_build own), own⟩
  · rintro ⟨rfl, built⟩
    exact built
  · intro failure failed
    rcases same with ⟨_, refused, full⟩ | same
    · cases refused.symm.trans failed
      exact .inl full
    · exact .inr (same.symm.trans failed)
  · intro before after builder _ reached
    exact (Builder.sound_of_foldlM reached).fits
  · intro before after draft _ reached
    exact (Draft.foldlM_fills .title reached).fits

/-- One response counted too many commands, on a text whose only region is a closed list in a closed branch. -/
theorem foreign_counts_refused_at_fork :
    let source := "[T]\n\x7b\"a\" \"m\" \"r\" (goto a;)\x7d".toList
    let foreign : Counts := [[2]]
    Source.checkBalance (Source.locate source) = .ok () ∧
      Source.count ";;)\x7d".toList = .ok foreign ∧
      ∃ marks own, Source.normalize source = .ok marks ∧ Source.count (Source.text marks) = .ok own ∧
        (∀ dialogue, build (.ofNames [] true) foreign marks = .ok dialogue ↔
          foreign = own ∧ build (.ofNames [] true) own marks = .ok dialogue) ∧
        (∀ failure, build (.ofNames [] true) foreign marks = .error failure →
          failure.code = "QDL_BUILD_CAPACITY" ∨ build (.ofNames [] true) own marks = .error failure) ∧
        (∀ before after builder, marks = before ++ after →
          before.foldlM (Builder.read (.ofNames [] true) foreign) (.start foreign) = .ok builder →
          ∀ table ∈ builder.tables,
            table.filled ≤ table.capacity ∧ table.left = table.capacity - table.filled) ∧
        ∀ before after draft, marks = before ++ after →
          before.foldlM (Draft.read (.ofNames [] true) foreign) Draft.start = .ok draft →
          ∀ table ∈ draft.stage.tables foreign,
            table.filled ≤ table.capacity ∧ table.left = table.capacity - table.filled :=
  ⟨by rfl, by rfl, foreign_counts_refused (.ofNames [] true) _ (by rfl) _⟩

end Parley
