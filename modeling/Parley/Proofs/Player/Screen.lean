import Parley.Proofs.Player.Painting
import Parley.Proofs.Player.Window
import Parley.Proofs.Player.Wrap

namespace Parley.Screen

variable {width height : Nat} {panel : Panel} {heading : Heading}

theorem contentWidth_of_wide (wide : 18 ≤ width) : contentWidth width + 2 = width := by
  unfold contentWidth
  omega

theorem contentWidth_pos (width : Nat) : 0 < contentWidth width :=
  Nat.lt_of_lt_of_le (by decide) (Nat.le_max_right _ 16)

/-- A cut text is to be seen if it was before: an ellipsis is. -/
theorem isGap_truncate {limit : Nat} (positive : 0 < limit) {text : List Char} {c : Char} (member : c ∈ text)
    (solid : breaksAt c = false) : isGap (Text.truncate limit text) = false := by
  rcases Text.truncate_cases positive text with ⟨_, whole⟩ | ⟨_, cropped⟩
  · rw [whole]
    exact isGap_eq_false member solid
  · rw [cropped]
    exact isGap_eq_false (List.mem_append_right _ List.mem_cons_self) (by decide)

section Message

theorem isRow_of_mem_messageRows {row : List Char} (member : row ∈ messageRows width height panel) :
    Text.IsRow (contentWidth width) panel.visible row :=
  Text.isRow_of_mem_wrap (contentWidth_pos width) (List.mem_of_mem_drop member)

theorem length_messageRows_le (width height : Nat) (panel : Panel) :
    (messageRows width height panel).length ≤ max (height - reservedRows panel) 1 := by
  rw [messageRows, List.length_drop]
  omega

/-- Where a message has no breaks but spaces, all of its rows are to be seen. -/
theorem isGap_of_mem_messageRows (plain : ∀ c ∈ panel.message.toList, breaksAt c = true → c = ' ')
    {row : List Char} (member : row ∈ messageRows width height panel) : isGap row = false := by
  have isRow := isRow_of_mem_messageRows member
  cases row with
  | nil => rfl
  | cons first rest =>
    have other : first ≠ ' ' := fun same => isRow.begins (congrArg some same)
    have spoken : first ∈ panel.message.toList := by
      rcases isRow.written first List.mem_cons_self with space | visible
      · exact absurd space other
      · exact List.mem_of_mem_take visible
    refine isGap_eq_false List.mem_cons_self (Bool.eq_false_iff.mpr fun breaks => ?_)
    exact other (plain first spoken breaks)

end Message

section Choices

theorem toList_label (index : Nat) : s!"[{index}] ".toList = '[' :: (index.repr.toList ++ [']', ' ']) := by
  simp [toString]

theorem bracket_solid : breaksAt '[' = false := by decide

theorem choiceLine_of_hidden {row : Nat}
    (hidden : (showsChoices panel && decide (panel.scroll + row < panel.choices.length)) = false) :
    choiceLine width panel row = ⟨"   ".toList, .reset⟩ := by
  unfold choiceLine
  dsimp only
  split
  · rfl
  · rename_i choice found
    split at found
    · rename_i shows
      obtain ⟨within, _⟩ := List.getElem?_eq_some_iff.mp found
      simp [shows, within] at hidden
    · cases found

theorem choiceLine_of_shown {row : Nat} {choice : String} (shows : showsChoices panel = true)
    (found : panel.choices[panel.scroll + row]? = some choice) :
    choiceLine width panel row =
      ⟨(if panel.scroll + row = panel.selected then "> " else "  ").toList ++
        s!"[{panel.scroll + row}] ".toList ++
        Text.truncate (max (contentWidth width - 6) 8) choice.toList,
        if panel.scroll + row = panel.selected then .green else .reset⟩ := by
  simp [choiceLine, shows, found]

theorem isGap_choiceLine (width : Nat) (panel : Panel) (row : Nat) :
    isGap (choiceLine width panel row).text =
      !(showsChoices panel && decide (panel.scroll + row < panel.choices.length)) := by
  cases shown : showsChoices panel && decide (panel.scroll + row < panel.choices.length) with
  | false =>
    rw [choiceLine_of_hidden shown]
    decide
  | true =>
    obtain ⟨shows, within⟩ := Bool.and_eq_true_iff.mp shown
    rw [choiceLine_of_shown shows (List.getElem?_eq_getElem (of_decide_eq_true within))]
    refine isGap_eq_false (List.mem_append_left _ (List.mem_append_right _ ?_)) bracket_solid
    rw [toList_label]
    exact List.mem_cons_self

theorem color_choiceLine {row : Nat} (apart : panel.scroll + row ≠ panel.selected) :
    (choiceLine width panel row).color = .reset := by
  unfold choiceLine
  dsimp only
  split
  · rfl
  · exact if_neg apart

theorem length_choiceLine_le (wide : 18 ≤ width) (few : panel.choices.length ≤ 1000) (row : Nat) :
    (choiceLine width panel row).text.length ≤ width := by
  cases shown : showsChoices panel && decide (panel.scroll + row < panel.choices.length) with
  | false =>
    rw [choiceLine_of_hidden shown]
    exact Nat.le_trans (by decide) wide
  | true =>
    obtain ⟨shows, within⟩ := Bool.and_eq_true_iff.mp shown
    have within := of_decide_eq_true within
    have number : (panel.scroll + row).repr.length ≤ 3 := (Nat.length_repr_le_iff (by decide)).mpr (by omega)
    have text := Text.length_truncate_le (max (contentWidth width - 6) 8)
      (panel.choices[panel.scroll + row]).toList
    have content := contentWidth_of_wide wide
    rw [choiceLine_of_shown shows (List.getElem?_eq_getElem within)]
    have marker : (if panel.scroll + row = panel.selected then "> " else "  ").toList.length = 2 := by
      split <;> rfl
    rw [List.length_append, List.length_append, marker, toList_label, List.length_cons, List.length_append,
      String.length_toList, List.length_cons, List.length_singleton]
    omega

end Choices

section Window

theorem isGap_windowText (width : Nat) (panel : Panel) :
    isGap (windowText width panel) = (!panel.isTyping && decide (panel.choices.length ≤ Panel.window)) := by
  unfold windowText
  dsimp only
  split
  · rename_i more
    obtain ⟨_, hidden⟩ := Bool.and_eq_true_iff.mp more
    have hidden : ¬ panel.choices.length ≤ Panel.window := Nat.not_le.mpr (of_decide_eq_true hidden)
    rw [decide_eq_false hidden, Bool.and_false]
    exact isGap_truncate (contentWidth_pos width) (c := 'w') (by simp [toString]) (by decide)
  · rename_i all
    split
    · rename_i typing
      rw [typing, Bool.not_true, Bool.false_and]
      decide
    · rename_i typed
      have typed := Bool.eq_false_iff.mpr typed
      have few : panel.choices.length ≤ Panel.window := by
        by_cases empty : panel.choices = []
        · simp [empty]
        · simpa [showsChoices, typed, empty] using all
      rw [typed, decide_eq_true few]
      decide

theorem length_windowText_le (width : Nat) (panel : Panel) :
    (windowText width panel).length ≤ contentWidth width := by
  have least : 16 ≤ contentWidth width := Nat.le_max_right _ _
  unfold windowText
  dsimp only
  split
  · exact Text.length_truncate_le _ _
  · split
    · exact Nat.le_trans (by decide) least
    · exact Nat.le_trans (by decide) least

/-- The lines of nothing but breaks that stand in the window for choices that are not shown, and under it for the
range of a window that has room for all of them. -/
def fillers (panel : Panel) : Nat :=
  if panel.isTyping then Panel.window else Panel.window + 1 - panel.choices.length

theorem countP_range_not_lt (count bound : Nat) :
    ((List.range count).countP fun index => !decide (index < bound)) = count - bound := by
  induction count with
  | zero => rw [Nat.zero_sub, List.range_zero, List.countP_nil]
  | succ count ih =>
    rw [List.range_succ, List.countP_append, ih, List.countP_singleton]
    split
    · rename_i past
      have past : bound ≤ count := by simpa using past
      omega
    · rename_i within
      have within : count < bound := by simpa using within
      omega

theorem countP_window (settled : panel.Settled) (width : Nat) :
    ((List.range Panel.window).map (choiceLine width panel)).countP (fun line => isGap line.text) +
      (isGap (windowText width panel)).toNat = fillers panel := by
  have hidden : ((List.range Panel.window).map (choiceLine width panel)).countP (fun line => isGap line.text) =
      Panel.window - if showsChoices panel then panel.choices.length - panel.scroll else 0 := by
    rw [List.countP_map, ← countP_range_not_lt]
    refine List.countP_congr fun row _ => ?_
    rw [Function.comp_apply, isGap_choiceLine]
    cases showsChoices panel with
    | false => simp
    | true =>
      have shifted : panel.scroll + row < panel.choices.length ↔ row < panel.choices.length - panel.scroll := by
        omega
      simp [shifted]
  have filled := settled.filled
  rw [hidden, isGap_windowText, fillers]
  unfold Panel.window at *
  cases typing : panel.isTyping with
  | true => simp [showsChoices, typing]
  | false =>
    by_cases empty : panel.choices = []
    · simp [showsChoices, empty]
    · have offered : 0 < panel.choices.length := List.length_pos_iff.mpr empty
      by_cases few : panel.choices.length ≤ 5
      · simp [showsChoices, typing, empty, few]
        omega
      · simp [showsChoices, typing, empty, few]
        omega

end Window

section Lines

def top (heading : Heading) (width height : Nat) (panel : Panel) : List Line :=
  let fit (text : String) : List Char := Text.truncate (contentWidth width) text.toList
  [⟨fit s!"{heading.title} | {heading.source}", .reset⟩,
    ⟨fit s!"state: {heading.saveFile}", .gray⟩,
    ⟨fit s!"status: {panel.status}", .gray⟩]
    ++ (if panel.header.isEmpty then [] else [⟨fit s!"[{panel.header}]", .cyan⟩])
    ++ (messageRows width height panel).map (⟨·, .reset⟩)
    ++ [⟨List.replicate (contentWidth width) '─', .gray⟩]

def bottom (width : Nat) (panel : Panel) : List Line :=
  let fit (text : String) : List Char := Text.truncate (contentWidth width) text.toList
  [⟨windowText width panel, .gray⟩]
    ++ (if panel.ended then [⟨"[end]".toList, .green⟩] else [])
    ++ [⟨fit keyHelp, .yellow⟩]
    ++ (if panel.help then [⟨fit saveHelp, .magenta⟩] else [])

theorem lines_eq (heading : Heading) (width height : Nat) (panel : Panel) :
    lines heading width height panel =
      top heading width height panel ++ (List.range Panel.window).map (choiceLine width panel) ++
        bottom width panel := by
  simp [lines, top, bottom]

theorem length_top (heading : Heading) (width height : Nat) (panel : Panel) :
    (top heading width height panel).length =
      3 + (!panel.header.isEmpty).toNat + (messageRows width height panel).length + 1 := by
  unfold top
  cases panel.header.isEmpty <;> simp <;> omega

theorem length_lines (heading : Heading) (width height : Nat) (panel : Panel) :
    (lines heading width height panel).length = reservedRows panel + (messageRows width height panel).length := by
  rw [lines_eq, List.length_append, List.length_append, length_top, bottom, reservedRows]
  cases panel.header.isEmpty <;> cases panel.ended <;> cases panel.help <;> simp <;> omega

/-- Above the window only rows of the message can be nothing but breaks. -/
theorem countP_top (heading : Heading) (width height : Nat) (panel : Panel) :
    (top heading width height panel).countP (fun line => isGap line.text) =
      (messageRows width height panel).countP isGap := by
  have positive := contentWidth_pos width
  have title : isGap (Text.truncate (contentWidth width) s!"{heading.title} | {heading.source}".toList) = false :=
    isGap_truncate positive (c := '|') (by simp [toString]) (by decide)
  have saveFile : isGap (Text.truncate (contentWidth width) s!"state: {heading.saveFile}".toList) = false :=
    isGap_truncate positive (c := 's') (by simp [toString]) (by decide)
  have status : isGap (Text.truncate (contentWidth width) s!"status: {panel.status}".toList) = false :=
    isGap_truncate positive (c := 's') (by simp [toString]) (by decide)
  have header : isGap (Text.truncate (contentWidth width) s!"[{panel.header}]".toList) = false :=
    isGap_truncate positive (c := '[') (by simp [toString]) bracket_solid
  have divider : isGap (List.replicate (contentWidth width) '─') = false :=
    isGap_eq_false (List.mem_replicate.mpr ⟨Nat.ne_of_gt positive, rfl⟩) (by decide)
  have rows : ((messageRows width height panel).map (⟨·, .reset⟩)).countP (fun line : Line => isGap line.text) =
      (messageRows width height panel).countP isGap := List.countP_map
  unfold top
  cases panel.header.isEmpty <;>
    simp only [List.countP_append, List.countP_cons, List.countP_nil, title, saveFile, status, header, divider,
      rows, Bool.false_eq_true, ↓reduceIte, Nat.zero_add, Nat.add_zero]

theorem countP_bottom (width : Nat) (panel : Panel) :
    (bottom width panel).countP (fun line => isGap line.text) = (isGap (windowText width panel)).toNat := by
  have positive := contentWidth_pos width
  have keys : isGap (Text.truncate (contentWidth width) keyHelp.toList) = false :=
    isGap_truncate positive (c := 'k') (by decide) (by decide)
  have help : isGap (Text.truncate (contentWidth width) saveHelp.toList) = false :=
    isGap_truncate positive (c := 'a') (by decide) (by decide)
  have mark : isGap "[end]".toList = false := by decide
  have text : (if isGap (windowText width panel) = true then 1 else 0) = (isGap (windowText width panel)).toNat := by
    cases isGap (windowText width panel) <;> rfl
  unfold bottom
  cases panel.ended <;> cases panel.help <;>
    simp only [List.countP_append, List.countP_cons, List.countP_nil, keys, help, mark, text, Bool.false_eq_true,
      ↓reduceIte, Nat.zero_add, Nat.add_zero]

/-- Each line of nothing but breaks takes a row more. -/
theorem length_painted (settled : panel.Settled) (heading : Heading) (width height : Nat) :
    ((lines heading width height panel).flatMap paintLine).length =
      reservedRows panel + (messageRows width height panel).length +
        (messageRows width height panel).countP isGap + fillers panel := by
  have window := countP_window settled width
  rw [length_flatMap_paintLine, length_lines, lines_eq, List.countP_append, List.countP_append, countP_top,
    countP_bottom]
  omega

/-- No line is wider than a screen that is wide enough for a margin. -/
theorem length_text_le_of_mem_lines (wide : 18 ≤ width) (few : panel.choices.length ≤ 1000) :
    ∀ line ∈ lines heading width height panel, line.text.length ≤ width := by
  have content := contentWidth_of_wide wide
  have fitted (text : List Char) : (Text.truncate (contentWidth width) text).length ≤ width :=
    Nat.le_trans (Text.length_truncate_le _ _) (by omega)
  have rows : ∀ row ∈ messageRows width height panel, row.length ≤ width := fun row member =>
    Nat.le_trans (isRow_of_mem_messageRows member).fits (by omega)
  have window : (windowText width panel).length ≤ width :=
    Nat.le_trans (length_windowText_le width panel) (by omega)
  have divider : contentWidth width ≤ width := by omega
  have mark : 5 ≤ width := by omega
  rw [lines_eq]
  refine List.forall_mem_append.mpr ⟨List.forall_mem_append.mpr ⟨?_, ?_⟩, ?_⟩
  · unfold top
    cases panel.header.isEmpty <;> simpa [or_imp, forall_and, fitted] using ⟨rows, divider⟩
  · exact List.forall_mem_map.mpr fun row _ => length_choiceLine_le wide few row
  · unfold bottom
    cases panel.ended <;> cases panel.help <;> simp [fitted, window, mark]

end Lines

end Parley.Screen
