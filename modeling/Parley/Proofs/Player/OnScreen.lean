import Parley.Proofs.Player.Screen

/-! What of the panel is on the screen. The message gives way to the other lines as if each of them took one row;
those that are nothing but breaks take two, and may push the last lines off the screen. -/

namespace Parley.Screen

variable {width height : Nat} {panel : Panel}

/-- Wherever a panel is shown for which the screen has at least one row more than are set aside, all lines fit its
width, and one row each of them fits its height. They are all on it unless the lines of nothing but breaks, which
take two rows, need more than is left: never so where choices are hidden by the window, the message is out and has
no breaks but spaces. -/
theorem lines_on_screen (heading : Heading) (changes : List Panel.Change)
    (few : (Panel.after changes).choices.length ≤ 1000) (wide : 18 ≤ width)
    (tall : reservedRows (Panel.after changes) + 1 ≤ height) :
    let panel := Panel.after changes
    let lines := lines heading width height panel
    let rows := messageRows width height panel
    let screen := render heading width height panel
    (∀ line ∈ lines, line.text.length ≤ width) ∧ lines.length ≤ height ∧
    (lines.flatMap paintLine <+: screen ↔
      reservedRows panel + rows.length + rows.countP isGap + fillers panel ≤ height) ∧
    (panel.isTyping = false → Panel.window < panel.choices.length →
      (∀ c ∈ panel.message.toList, breaksAt c = true → c = ' ') → lines.flatMap paintLine <+: screen) := by
  intro panel lines rows screen
  have settled : panel.Settled := Panel.settled_after changes
  have clipped : rows.length ≤ max (height - reservedRows panel) 1 := length_messageRows_le width height panel
  have counted : lines.length = reservedRows panel + rows.length := length_lines heading width height panel
  have single : lines.length ≤ height := by
    have spare : reservedRows panel + 1 ≤ height := tall
    omega
  have shown : lines.flatMap paintLine <+: screen ↔
      reservedRows panel + rows.length + rows.countP isGap + fillers panel ≤ height := by
    rw [← length_painted settled heading width height]
    exact prefix_paint_iff
  refine ⟨length_text_le_of_mem_lines wide few, single, shown, ?_⟩
  intro typed hidden plain
  have full : fillers panel = 0 := by
    rw [fillers, typed]
    exact Nat.sub_eq_zero_of_le hidden
  have visible : rows.countP isGap = 0 := List.countP_eq_zero.mpr fun row member =>
    Bool.eq_false_iff.mp (isGap_of_mem_messageRows plain member)
  rw [shown, full, visible, ← counted]
  exact single

/-- There are more choices than the window has rows. -/
def market : Branch :=
  ⟨"market", "What will it be?", ["Bread", "Salt", "Rope", "Oil", "Tea", "Nothing"].map (⟨·, []⟩)⟩

theorem plain_market : ∀ c ∈ market.message.toList, breaksAt c = true → c = ' ' := by
  have checked : market.message.toList.all (fun c => breaksAt c = true → c = ' ') = true := by decide +kernel
  exact fun c member => of_decide_eq_true (List.all_eq_true.mp checked c member)

def fair : Heading := ⟨"Fair", "/fair.qdl", "fair.json"⟩

theorem lines_on_screen_at_market :
    let panel := Panel.after [.showBranch market 5, .finishTyping, .toggleHelp]
    let lines := lines fair 30 14 panel
    let rows := messageRows 30 14 panel
    let screen := render fair 30 14 panel
    panel.choices.length ≤ 1000 ∧ 18 ≤ 30 ∧ reservedRows panel + 1 ≤ 14 ∧
    (∀ line ∈ lines, line.text.length ≤ 30) ∧ lines.length ≤ 14 ∧
    (lines.flatMap paintLine <+: screen ↔
      reservedRows panel + rows.length + rows.countP isGap + fillers panel ≤ 14) ∧
    panel.isTyping = false ∧ Panel.window < panel.choices.length ∧
    (∀ c ∈ panel.message.toList, breaksAt c = true → c = ' ') ∧ lines.flatMap paintLine <+: screen := by
  intro panel lines rows screen
  have few : panel.choices.length ≤ 1000 := by decide
  have wide : 18 ≤ 30 := by decide
  have tall : reservedRows panel + 1 ≤ 14 := by decide
  have typed : panel.isTyping = false := by decide
  have hidden : Panel.window < panel.choices.length := by decide
  have plain : ∀ c ∈ panel.message.toList, breaksAt c = true → c = ' ' := plain_market
  obtain ⟨fits, single, shown, whole⟩ := lines_on_screen fair _ few wide tall
  exact ⟨few, wide, tall, fits, single, shown, typed, hidden, plain, whole typed hidden plain⟩

/-- With one choice, the four empty rows of the window and the line below it take five rows more than are set
aside: neither the keys nor the help are on the screen. -/
theorem reserved_rows_short :
    let panel := Panel.after [.showBranch ⟨"stall", "Closed.", [⟨"Leave", []⟩]⟩ 0, .finishTyping, .toggleHelp]
    let keys : Line := ⟨Text.truncate (contentWidth 30) keyHelp.toList, .yellow⟩
    let help : Line := ⟨Text.truncate (contentWidth 30) saveHelp.toList, .magenta⟩
    let screen := render fair 30 14 panel
    panel.choices.length ≤ 1000 ∧ reservedRows panel + 1 ≤ 14 ∧
      keys ∈ lines fair 30 14 panel ∧ help ∈ lines fair 30 14 panel ∧ keys ∉ screen ∧ help ∉ screen := by
  decide +kernel

section Highlight

/-- The window in front of one of its rows, and behind it. -/
theorem range_window {row : Nat} (inside : row < Panel.window) :
    ∃ later, List.range Panel.window = List.range row ++ row :: later ∧ ∀ other ∈ later, row < other := by
  obtain ⟨rest, split⟩ : ∃ rest, Panel.window = row + (rest + 1) := ⟨Panel.window - row - 1, by omega⟩
  refine ⟨(List.range rest).map fun other => row + (other + 1), ?_, ?_⟩
  · rw [split, List.range_add, List.range_succ_eq_map, List.map_cons, List.map_map]
    rfl
  · intro other member
    obtain ⟨offset, _, rfl⟩ := List.mem_map.mp member
    omega

theorem color_of_mem_top {heading : Heading} {line : Line} (member : line ∈ top heading width height panel) :
    line.color ≠ .green := by
  revert line
  unfold top
  cases panel.header.isEmpty <;> simp [or_imp, forall_and]

theorem color_of_mem_bottom (going : panel.ended = false) {line : Line} (member : line ∈ bottom width panel) :
    line.color ≠ .green := by
  revert line
  unfold bottom
  rw [going]
  cases panel.help <;> simp

/-- The lines above the highlighted choice. -/
def linesAbove (heading : Heading) (width height : Nat) (panel : Panel) : List Line :=
  top heading width height panel ++ (List.range (panel.selected - panel.scroll)).map (choiceLine width panel)

/-- The rows painted above the highlighted choice. -/
def rowsAbove (width height : Nat) (panel : Panel) : Nat :=
  3 + (!panel.header.isEmpty).toNat + (messageRows width height panel).length +
    (messageRows width height panel).countP isGap + 1 + (panel.selected - panel.scroll)

theorem length_painted_above (settled : panel.Settled) (shows : showsChoices panel = true)
    (offered : panel.choices ≠ []) (heading : Heading) (width height : Nat) :
    ((linesAbove heading width height panel).flatMap paintLine).length = rowsAbove width height panel := by
  have chosen := settled.selected_lt offered
  have visible : ((List.range (panel.selected - panel.scroll)).map (choiceLine width panel)).countP
      (fun line => isGap line.text) = 0 := by
    refine List.countP_eq_zero.mpr (List.forall_mem_map.mpr fun row member => ?_)
    have within : panel.scroll + row < panel.choices.length := by
      have before := List.mem_range.mp member
      omega
    rw [isGap_choiceLine, shows, decide_eq_true within]
    decide
  rw [length_flatMap_paintLine, linesAbove, List.length_append, List.countP_append, length_top, countP_top,
    visible, List.length_map, List.length_range, rowsAbove]
  omega

/-- The highlighted choice is one of the lines of the window. -/
theorem lines_split (settled : panel.Settled) (heading : Heading) (width height : Nat) :
    ∃ later : List Nat, lines heading width height panel =
        linesAbove heading width height panel ++
          choiceLine width panel (panel.selected - panel.scroll) ::
            (later.map (choiceLine width panel) ++ bottom width panel) ∧
      ∀ row ∈ later, panel.selected - panel.scroll < row := by
  have inside : panel.selected - panel.scroll < Panel.window := by
    have inside := settled.inside
    have scrolled := settled.scrolled
    omega
  obtain ⟨later, split, behind⟩ := range_window inside
  refine ⟨later, ?_, behind⟩
  rw [lines_eq, split, linesAbove]
  simp

theorem choiceLine_selected (settled : panel.Settled) (shows : showsChoices panel = true) {choice : String}
    (found : panel.choices[panel.selected]? = some choice) (width : Nat) :
    choiceLine width panel (panel.selected - panel.scroll) =
      ⟨s!"> [{panel.selected}] ".toList ++
        Text.truncate (max (contentWidth width - 6) 8) choice.toList, .green⟩ := by
  have place : panel.scroll + (panel.selected - panel.scroll) = panel.selected :=
    Nat.add_sub_of_le settled.scrolled
  have shown : panel.choices[panel.scroll + (panel.selected - panel.scroll)]? = some choice := by
    rw [place]
    exact found
  rw [choiceLine_of_shown shows shown, place, if_pos rfl, if_pos rfl, toList_label]
  simp [toString]

/-- The one green line is the highlighted choice, which is painted if there is room for it. -/
theorem filter_green (settled : panel.Settled) (typed : panel.isTyping = false) {choice : String}
    (found : panel.choices[panel.selected]? = some choice) (heading : Heading) (width height : Nat) :
    (render heading width height panel).filter (·.color = .green) =
      if rowsAbove width height panel < height then
        [⟨s!"> [{panel.selected}] ".toList ++
          Text.truncate (max (contentWidth width - 6) 8) choice.toList, .green⟩]
      else [] := by
  obtain ⟨chosen, _⟩ := List.getElem?_eq_some_iff.mp found
  have offered : panel.choices ≠ [] := List.ne_nil_of_length_pos (Nat.zero_lt_of_lt chosen)
  have shows : showsChoices panel = true := by simp [showsChoices, typed, offered]
  have going : panel.ended = false := Bool.eq_false_iff.mpr fun ended => offered (settled.emptied ended).1
  have scrolled := settled.scrolled
  have others {row : Nat} (apart : row ≠ panel.selected - panel.scroll) :
      (choiceLine width panel row).color ≠ .green := by
    rw [color_choiceLine (by omega)]
    decide
  have highlighted := choiceLine_selected settled shows found width
  have colored : (choiceLine width panel (panel.selected - panel.scroll)).color = .green :=
    congrArg Line.color highlighted
  have solid : isGap (choiceLine width panel (panel.selected - panel.scroll)).text = false := by
    rw [isGap_choiceLine, Nat.add_sub_of_le scrolled, shows, decide_eq_true chosen]
    rfl
  obtain ⟨later, split, behind⟩ := lines_split settled heading width height
  have above : ∀ line ∈ linesAbove heading width height panel, line.color ≠ .green :=
    List.forall_mem_append.mpr ⟨fun _ => color_of_mem_top, List.forall_mem_map.mpr fun row member =>
      others (Nat.ne_of_lt (List.mem_range.mp member))⟩
  have below : ∀ line ∈ later.map (choiceLine width panel) ++ bottom width panel, line.color ≠ .green :=
    List.forall_mem_append.mpr ⟨List.forall_mem_map.mpr fun row member =>
      others (Nat.ne_of_gt (behind row member)), fun _ => color_of_mem_bottom going⟩
  rw [render, split, filter_paint (by decide) solid colored above below,
    length_painted_above settled shows offered, highlighted]

/-- Eleven rows have room for the highlighted choice if the rows of the message are to be seen. -/
theorem rowsAbove_lt (settled : panel.Settled) (tall : 11 ≤ height)
    (visible : ∀ row ∈ messageRows width height panel, isGap row = false) :
    rowsAbove width height panel < height := by
  have clipped := length_messageRows_le width height panel
  have inside := settled.inside
  have single : (messageRows width height panel).countP isGap = 0 := List.countP_eq_zero.mpr fun row member =>
    Bool.eq_false_iff.mp (visible row member)
  have header := Bool.toNat_le (!panel.header.isEmpty)
  rw [rowsAbove, single]
  unfold reservedRows Panel.window at *
  omega

/-- Wherever a panel with choices is shown whose message is out, the screen has one green row, which is the
highlighted choice, cut to the width behind its number. It is lost if the rows above it, of which those of the
message that are nothing but breaks count twice, fill the screen; that cannot be if the message has no breaks but
spaces. -/
theorem highlight_on_screen (heading : Heading) (changes : List Panel.Change)
    (typed : (Panel.after changes).isTyping = false) (offered : (Panel.after changes).choices ≠ [])
    (few : (Panel.after changes).choices.length ≤ 1000) (wide : 18 ≤ width) (tall : 11 ≤ height) :
    let panel := Panel.after changes
    ∃ choice text, panel.choices[panel.selected]? = some choice ∧
      (choice.length ≤ width - 8 ∧ text = choice.toList ∨
        width - 8 < choice.length ∧ text = choice.toList.take (width - 9) ++ ['…']) ∧
      (∀ line ∈ lines heading width height panel, line.text.length ≤ width) ∧
      (render heading width height panel).filter (·.color = .green) =
        (if rowsAbove width height panel < height then
          [⟨s!"> [{panel.selected}] ".toList ++ text, .green⟩] else []) ∧
      ((∀ c ∈ panel.message.toList, breaksAt c = true → c = ' ') → rowsAbove width height panel < height) := by
  intro panel
  have settled : panel.Settled := Panel.settled_after changes
  have within := settled.selected_lt offered
  have found := List.getElem?_eq_getElem within
  have content : max (contentWidth width - 6) 8 = width - 8 := by
    unfold contentWidth
    omega
  have cut := Text.truncate_cases (show 0 < width - 8 by omega) panel.choices[panel.selected].toList
  have green := filter_green settled typed found heading width height
  rw [content] at green
  refine ⟨_, _, found, ?_, length_text_le_of_mem_lines wide few, green, fun plain => ?_⟩
  · rw [String.length_toList] at cut
    exact cut
  · exact rowsAbove_lt settled tall fun row member => isGap_of_mem_messageRows plain member

theorem highlight_on_screen_at_market :
    let panel := Panel.after [.showBranch market 5, .finishTyping]
    panel.isTyping = false ∧ panel.choices ≠ [] ∧ panel.choices.length ≤ 1000 ∧ 18 ≤ 18 ∧ 11 ≤ 11 ∧
    (∀ c ∈ panel.message.toList, breaksAt c = true → c = ' ') ∧ rowsAbove 18 11 panel < 11 ∧
    ∃ choice text, panel.choices[panel.selected]? = some choice ∧
      (choice.length ≤ 18 - 8 ∧ text = choice.toList ∨
        18 - 8 < choice.length ∧ text = choice.toList.take (18 - 9) ++ ['…']) ∧
      (∀ line ∈ lines fair 18 11 panel, line.text.length ≤ 18) ∧
      (render fair 18 11 panel).filter (·.color = .green) =
        [⟨s!"> [{panel.selected}] ".toList ++ text, .green⟩] := by
  intro panel
  have typed : panel.isTyping = false := by decide
  have offered : panel.choices ≠ [] := by decide
  have few : panel.choices.length ≤ 1000 := by decide
  have plain : ∀ c ∈ panel.message.toList, breaksAt c = true → c = ' ' := plain_market
  obtain ⟨choice, text, found, cut, fits, green, room⟩ :=
    highlight_on_screen fair _ typed offered few (Nat.le_refl 18) (Nat.le_refl 11)
  rw [if_pos (room plain)] at green
  exact ⟨typed, offered, few, Nat.le_refl 18, Nat.le_refl 11, plain, room plain, choice, text, found, cut, fits,
    green⟩

/-- A message of one wide space takes two rows, and the last choice of the window is pushed off the screen. -/
theorem highlight_lost :
    let hall : Branch := ⟨"hall", "\u2003", ["north", "east", "south", "west", "stay"].map (⟨·, []⟩)⟩
    let panel := Panel.after [.showBranch hall 4, .finishTyping]
    panel.isTyping = false ∧ panel.choices.length = 5 ∧ panel.selected = 4 ∧
      (render fair 20 11 panel).filter (·.color = .green) = [] := by
  decide +kernel

end Highlight

end Parley.Screen
