import Parley.Player.Panel

/-! What a panel shows of a branch. A branch is laid out once a turn, at its first response; from then on
only the highlight moves and the message is typed on. -/

namespace Parley.Panel

/-- The branch stands on the panel, with the response at the cursor highlighted. As long as its message is
being typed the cursor has not moved. -/
structure Lays (panel : Panel) (branch : Branch) (cursor : Nat) : Prop where
  header : panel.header = branch.header
  message : panel.message = branch.message
  choices : panel.choices = branch.responses.map Response.text
  selected : panel.selected = cursor
  scrolled : panel.scroll ≤ panel.selected
  going : panel.ended = false
  stale : panel.fresh = false
  unmoved : panel.isTyping = true → cursor = 0

/-- Nothing of a branch stands on the panel, so there is nothing to be cleared. -/
def Clears (panel : Panel) : Prop := panel.markEnded = panel

theorem markEnded_clears (panel : Panel) : panel.markEnded.Clears := rfl

namespace Clears

variable {panel : Panel}

theorem ended (clears : panel.Clears) : panel.ended = true := by
  rw [← clears]
  rfl

theorem choices (clears : panel.Clears) : panel.choices = [] := by
  rw [← clears]
  rfl

theorem typed (clears : panel.Clears) : panel.isTyping = false := by
  rw [← clears]
  rfl

theorem fresh (clears : panel.Clears) : panel.fresh = true := by
  rw [← clears]
  rfl

end Clears

theorem selected_select {panel : Panel} {cursor : Nat} (within : cursor < panel.choices.length) :
    (panel.select cursor).selected = cursor :=
  Nat.min_eq_left (Nat.le_sub_one_of_lt within)

/-- The highlight is never scrolled out at the top. -/
theorem scroll_select (panel : Panel) (cursor : Nat) :
    (panel.select cursor).scroll ≤ (panel.select cursor).selected := by
  unfold select window
  dsimp only
  split <;> omega

theorem showBranch_of_fresh {panel : Panel} (fresh : panel.fresh = true) (branch : Branch)
    (cursor : Nat) :
    panel.showBranch branch cursor = select
      { panel with
        header := branch.header, message := branch.message, typed := 0
        choices := branch.responses.map Response.text
        selected := 0, scroll := 0, fresh := false, ended := false } cursor := by
  simp [showBranch, fresh]

theorem showBranch_of_stale {panel : Panel} {branch : Branch} (stale : panel.fresh = false)
    (header : panel.header = branch.header) (cursor : Nat) :
    panel.showBranch branch cursor = { panel with ended := false }.select cursor := by
  simp [showBranch, stale, header]

theorem showBranch_lays {panel : Panel} {branch : Branch} (fresh : panel.fresh = true)
    (answered : branch.responses ≠ []) : (panel.showBranch branch 0).Lays branch 0 := by
  rw [showBranch_of_fresh fresh]
  refine ⟨rfl, rfl, rfl, ?_, scroll_select _ _, rfl, rfl, fun _ => rfl⟩
  apply selected_select
  simpa [List.length_pos_iff] using answered

/-- Once a branch is laid out, showing it again only moves the highlight. -/
theorem Lays.showBranch {panel : Panel} {branch : Branch} {cursor next : Nat}
    (lays : panel.Lays branch cursor) (within : next < branch.responses.length)
    (unmoved : panel.isTyping = true → next = 0) : (panel.showBranch branch next).Lays branch next := by
  rw [showBranch_of_stale lays.stale lays.header]
  refine ⟨lays.header, lays.message, lays.choices, ?_, scroll_select _ _, rfl, lays.stale, unmoved⟩
  apply selected_select
  rw [lays.choices, List.length_map]
  exact within

/-- Going back to the first response leaves nothing of where the highlight was. -/
theorem Lays.showBranch_first {panel : Panel} {branch : Branch} {cursor : Nat}
    (lays : panel.Lays branch cursor) :
    panel.showBranch branch 0 = { panel with selected := 0, scroll := 0 } := by
  rw [showBranch_of_stale lays.stale lays.header, ← lays.going]
  simp [select, window]

theorem Lays.showBranch_self {panel : Panel} {branch : Branch} (lays : panel.Lays branch 0) :
    panel.showBranch branch 0 = panel := by
  have selected := lays.selected
  have scrolled : panel.scroll = 0 := Nat.le_zero.mp (selected ▸ lays.scrolled)
  calc panel.showBranch branch 0
    _ = { panel with selected := 0, scroll := 0 } := lays.showBranch_first
    _ = { panel with scroll := 0 } :=
      congrArg (fun selected => { panel with selected, scroll := 0 }) selected.symm
    _ = panel := congrArg (fun scroll => { panel with scroll }) scrolled.symm

theorem Lays.showBranch_twice {panel : Panel} {branch : Branch} {cursor next : Nat}
    (lays : panel.Lays branch cursor) (within : next < branch.responses.length)
    (unmoved : panel.isTyping = true → next = 0) :
    (panel.showBranch branch next).showBranch branch 0 = panel.showBranch branch 0 := by
  rw [(lays.showBranch within unmoved).showBranch_first, lays.showBranch_first,
    showBranch_of_stale lays.stale lays.header, ← lays.going]
  rfl

/-- What may happen to a panel while nobody but the player looks at it: the message is typed on, the help
and the status change. -/
structure Redraws (before after : Panel) : Prop where
  same : after = { before with typed := after.typed, help := after.help, status := after.status }
  typed : before.typed ≤ after.typed
  within : after.typed ≤ max before.typed before.message.length

namespace Redraws

theorem refl (panel : Panel) : panel.Redraws panel := ⟨rfl, Nat.le_refl _, Nat.le_max_left _ _⟩

theorem trans {first second third : Panel} (early : first.Redraws second)
    (late : second.Redraws third) : first.Redraws third := by
  refine ⟨?_, Nat.le_trans early.typed late.typed, ?_⟩
  · have same := late.same
    rw [early.same] at same
    exact same
  · have further := late.within
    have message : second.message = first.message := by rw [early.same]
    rw [message] at further
    have within := early.within
    omega

theorem isTyping {before after : Panel} (redraws : before.Redraws after)
    (typing : after.isTyping = true) : before.isTyping = true := by
  have same : after.message = before.message := by rw [redraws.same]
  simp only [Panel.isTyping, decide_eq_true_eq] at typing ⊢
  exact Nat.lt_of_le_of_lt redraws.typed (same ▸ typing)

theorem lays {before after : Panel} {branch : Branch} {cursor : Nat} (redraws : before.Redraws after)
    (lays : before.Lays branch cursor) : after.Lays branch cursor := by
  have unmoved : after.isTyping = true → cursor = 0 := fun typing =>
    lays.unmoved (redraws.isTyping typing)
  rw [redraws.same] at unmoved ⊢
  exact ⟨lays.header, lays.message, lays.choices, lays.selected, lays.scrolled, lays.going, lays.stale,
    unmoved⟩

theorem clears {before after : Panel} (redraws : before.Redraws after) (clears : before.Clears) :
    after.Clears := by
  have typed : after.typed = 0 := by
    have within := redraws.within
    rw [← clears] at within
    exact Nat.le_zero.mp within
  have same := redraws.same
  rw [typed, ← clears] at same
  rw [same]
  rfl

end Redraws

theorem tick_redraws (panel : Panel) : panel.Redraws panel.tick := by
  unfold tick advance
  split
  · rename_i typing
    exact ⟨rfl, Nat.le_succ _, Nat.le_trans (of_decide_eq_true typing) (Nat.le_max_right _ _)⟩
  · exact .refl panel

theorem finishTyping_redraws {panel : Panel} (typing : panel.isTyping = true) :
    panel.Redraws panel.finishTyping :=
  ⟨rfl, Nat.le_of_lt (of_decide_eq_true typing), Nat.le_max_right _ _⟩

theorem toggleHelp_redraws (panel : Panel) : panel.Redraws panel.toggleHelp :=
  ⟨rfl, Nat.le_refl _, Nat.le_max_left _ _⟩

theorem status_redraws (panel : Panel) (status : String) :
    panel.Redraws { panel with status } :=
  ⟨rfl, Nat.le_refl _, Nat.le_max_left _ _⟩

theorem report_redraws (panel : Panel) (status : String) : panel.Redraws (panel.report status) :=
  panel.status_redraws _

/-- A message that is not being typed is all there. -/
theorem visible_of_typed {panel : Panel} (typed : panel.isTyping = false) :
    panel.visible = panel.message.toList := by
  have all : panel.message.length ≤ panel.typed := by simpa [isTyping] using typed
  exact List.take_of_length_le (String.length_toList ▸ all)

/-- The panel without its status, which nothing but the screen depends on. -/
def quiet (panel : Panel) : Panel := { panel with status := "" }

theorem quiet_report (panel : Panel) (status : String) : (panel.report status).quiet = panel.quiet := rfl

theorem isTyping_quiet (panel : Panel) : panel.quiet.isTyping = panel.isTyping := rfl

theorem quiet_beginTurn (panel : Panel) : panel.beginTurn.quiet = panel.quiet.beginTurn := rfl

theorem quiet_markEnded (panel : Panel) : panel.markEnded.quiet = panel.quiet.markEnded := rfl

theorem quiet_toggleHelp (panel : Panel) : panel.toggleHelp.quiet = panel.quiet.toggleHelp := rfl

theorem quiet_finishTyping (panel : Panel) : panel.finishTyping.quiet = panel.quiet.finishTyping := rfl

theorem quiet_tick (panel : Panel) : panel.tick.quiet = panel.quiet.tick := by
  rw [tick, tick, advance, advance, isTyping_quiet]
  split <;> rfl

theorem quiet_showBranch (panel : Panel) (branch : Branch) (cursor : Nat) :
    (panel.showBranch branch cursor).quiet = panel.quiet.showBranch branch cursor := by
  cases renewed : panel.fresh || panel.header ≠ branch.header with
  | true =>
    have also : (panel.quiet.fresh || panel.quiet.header ≠ branch.header) = true := renewed
    simp only [showBranch, renewed, also]
    rfl
  | false =>
    have also : (panel.quiet.fresh || panel.quiet.header ≠ branch.header) = false := renewed
    simp only [showBranch, renewed, also]
    rfl

end Parley.Panel
