import Parley.Proofs.Player.Panel

namespace Parley.Panel

inductive Change
  | showBranch (branch : Branch) (cursor : Nat)
  | select (cursor : Nat)
  | tick
  | finishTyping
  | beginTurn
  | markEnded
  | setStatus (status : String)
  | toggleHelp

def change (panel : Panel) : Change → Panel
  | .showBranch branch cursor => panel.showBranch branch cursor
  | .select cursor => panel.select cursor
  | .tick => panel.tick
  | .finishTyping => panel.finishTyping
  | .beginTurn => panel.beginTurn
  | .markEnded => panel.markEnded
  | .setStatus status => { panel with status }
  | .toggleHelp => panel.toggleHelp

def after (changes : List Change) : Panel := changes.foldl change start

/-- The highlight is on a choice and in the window, no row of the window stays empty while there are choices
outside of it, no more is typed than there is of the message, and a dialogue that is over shows nothing. -/
structure Settled (panel : Panel) : Prop where
  chosen : panel.selected ≤ panel.choices.length - 1
  scrolled : panel.scroll ≤ panel.selected
  inside : panel.selected < panel.scroll + window
  filled : panel.scroll + window ≤ max panel.choices.length window
  typed : panel.typed ≤ panel.message.length
  emptied : panel.ended = true → panel.choices = [] ∧ panel.message = ""

theorem settled_markEnded (panel : Panel) : panel.markEnded.Settled :=
  ⟨Nat.le_refl _, Nat.le_refl _, Nat.zero_lt_succ _, Nat.le_max_right _ _, Nat.le_refl _, fun _ => ⟨rfl, rfl⟩⟩

/-- A branch that is laid out has its first choices in the window. -/
theorem settled_of_first {panel : Panel} (selected : panel.selected = 0) (scroll : panel.scroll = 0)
    (typed : panel.typed = 0) (going : panel.ended = false) : panel.Settled := by
  have shown : 0 < window := by decide
  refine ⟨by omega, by omega, by omega, by omega, by omega, ?_⟩
  rw [going]
  nofun

theorem settled_start : start.Settled := settled_of_first rfl rfl rfl rfl

namespace Settled

variable {panel : Panel}

/-- The window follows the highlight to either side, and never further than the choices go. -/
theorem select (settled : panel.Settled) (cursor : Nat) : (panel.select cursor).Settled := by
  have filled := settled.filled
  have chosen : (panel.select cursor).selected ≤ panel.choices.length - 1 := Nat.min_le_right _ _
  refine ⟨chosen, scroll_select panel cursor, ?_, ?_, settled.typed, settled.emptied⟩
  · unfold Panel.select window
    dsimp only
    split <;> omega
  · unfold Panel.select window at *
    dsimp only at *
    split <;> omega

theorem showBranch (settled : panel.Settled) (branch : Branch) (cursor : Nat) :
    (panel.showBranch branch cursor).Settled := by
  unfold Panel.showBranch
  split
  · exact (settled_of_first rfl rfl rfl rfl).select cursor
  · have going : { panel with ended := false }.Settled :=
      ⟨settled.chosen, settled.scrolled, settled.inside, settled.filled, settled.typed, nofun⟩
    exact going.select cursor

theorem tick (settled : panel.Settled) : panel.tick.Settled := by
  unfold Panel.tick advance
  split
  · rename_i typing
    exact ⟨settled.chosen, settled.scrolled, settled.inside, settled.filled, of_decide_eq_true typing,
      settled.emptied⟩
  · exact settled

theorem change (settled : panel.Settled) (change : Change) : (panel.change change).Settled := by
  cases change with
  | showBranch branch cursor => exact settled.showBranch branch cursor
  | select cursor => exact settled.select cursor
  | tick => exact settled.tick
  | finishTyping =>
    exact ⟨settled.chosen, settled.scrolled, settled.inside, settled.filled, Nat.le_refl _, settled.emptied⟩
  | markEnded =>
    exact settled_markEnded panel
  | beginTurn | setStatus | toggleHelp =>
    exact ⟨settled.chosen, settled.scrolled, settled.inside, settled.filled, settled.typed, settled.emptied⟩

theorem after_changes (settled : panel.Settled) (changes : List Change) :
    (changes.foldl Panel.change panel).Settled := by
  induction changes generalizing panel with
  | nil => exact settled
  | cons first rest ih => exact ih (settled.change first)

/-- The highlight is on a choice where there are any. -/
theorem selected_lt (settled : panel.Settled) (offered : panel.choices ≠ []) :
    panel.selected < panel.choices.length := by
  have chosen := settled.chosen
  have filled := List.length_pos_iff.mpr offered
  omega

theorem selected_eq_zero (settled : panel.Settled) (empty : panel.choices = []) : panel.selected = 0 := by
  have chosen := settled.chosen
  rw [empty] at chosen
  exact Nat.le_zero.mp chosen

end Settled

theorem settled_after (changes : List Change) : (after changes).Settled :=
  settled_start.after_changes changes

/-- What a number of advances in a row tell. -/
def typing : Nat → Panel → List Bool
  | 0, _ => []
  | times + 1, panel => panel.advance.1 :: typing times panel.advance.2

theorem typing_done {panel : Panel} (typed : panel.isTyping = false) (times : Nat) :
    typing times panel = List.replicate times false := by
  induction times with
  | zero => rfl
  | succ times ih =>
    have still : panel.advance = (false, panel) := by simp [advance, typed]
    rw [typing, still, ih, List.replicate_succ]

/-- The message is typed character by character, and nothing after it. -/
theorem typing_eq {panel : Panel} {left : Nat} (within : panel.typed + left = panel.message.length) (more : Nat) :
    typing (left + more) panel = List.replicate left true ++ List.replicate more false := by
  induction left generalizing panel with
  | zero =>
    have typed : panel.isTyping = false := decide_eq_false (by omega)
    rw [Nat.zero_add, typing_done typed]
    rfl
  | succ left ih =>
    have begun : panel.isTyping = true := decide_eq_true (by omega)
    have further : panel.advance = (true, { panel with typed := panel.typed + 1 }) := by
      simp [advance, begun]
    have fewer : panel.typed + 1 + left = panel.message.length := by omega
    have rest : typing (left + more) { panel with typed := panel.typed + 1 } =
        List.replicate left true ++ List.replicate more false := ih fewer
    rw [Nat.succ_add, typing, further, rest, List.replicate_succ, List.cons_append]

/-- Wherever changes lead, the highlight is on a choice if there are any and in the window; the window has no empty
rows while choices are hidden; what is visible is the typed part of the message, and as many advances as
there are characters left still tell that they typed one, and no more; and once the dialogue is over there are neither choices nor a message. -/
theorem panel_settled (changes : List Change) :
    let panel := after changes
    (panel.choices = [] ∧ panel.selected = 0 ∨ panel.selected < panel.choices.length) ∧
    panel.scroll ≤ panel.selected ∧ panel.selected < panel.scroll + window ∧
    panel.scroll + window ≤ max panel.choices.length window ∧
    panel.typed ≤ panel.message.length ∧
    panel.visible <+: panel.message.toList ∧ panel.visible.length = panel.typed ∧
    (∀ more, typing (panel.message.length - panel.typed + more) panel =
      List.replicate (panel.message.length - panel.typed) true ++ List.replicate more false) ∧
    (panel.ended = true → panel.choices = [] ∧ panel.message = "") := by
  intro panel
  have settled : panel.Settled := settled_after changes
  have chosen : panel.choices = [] ∧ panel.selected = 0 ∨ panel.selected < panel.choices.length := by
    by_cases empty : panel.choices = []
    · exact .inl ⟨empty, settled.selected_eq_zero empty⟩
    · exact .inr (settled.selected_lt empty)
  have shown : panel.visible.length = panel.typed := by
    rw [visible, List.length_take, String.length_toList]
    exact Nat.min_eq_left settled.typed
  have left : panel.typed + (panel.message.length - panel.typed) = panel.message.length :=
    Nat.add_sub_of_le settled.typed
  exact ⟨chosen, settled.scrolled, settled.inside, settled.filled, settled.typed, List.take_prefix _ _, shown,
    typing_eq left, settled.emptied⟩

end Parley.Panel
