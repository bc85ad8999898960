import Parley.Player.Screen

/-! Painting lines in rows. A line takes one row, and one of nothing but breaks takes two; what is painted below
the last row of the screen is lost. -/

namespace Parley.Screen

/-- A row in which there is nothing to be seen, and in front of which a screen leaves another one empty. -/
def isGap (row : List Char) : Bool := row ≠ [] && row.all breaksAt

theorem paintLine_eq (line : Line) : paintLine line = if isGap line.text then [⟨[], .reset⟩, line] else [line] := rfl

/-- Whatever cannot be broken at is to be seen. -/
theorem isGap_eq_false {row : List Char} {c : Char} (member : c ∈ row) (solid : breaksAt c = false) :
    isGap row = false := by
  rw [isGap, Bool.and_eq_false_iff]
  right
  rw [List.all_eq_false]
  exact ⟨c, member, by simp [solid]⟩

theorem length_flatMap_paintLine (lines : List Line) :
    (lines.flatMap paintLine).length = lines.length + lines.countP fun line => isGap line.text := by
  induction lines with
  | nil => rfl
  | cons line rest ih =>
    rw [List.flatMap_cons, List.length_append, ih, List.length_cons, List.countP_cons, paintLine_eq]
    split
    · rw [List.length_cons, List.length_singleton]
      omega
    · rw [List.length_singleton]
      omega

theorem length_paint (height : Nat) (lines : List Line) : (paint height lines).length = height := by
  rw [paint, List.length_append, List.length_replicate, List.length_take]
  omega

/-- All lines are on the screen if their rows are no more than it has. -/
theorem prefix_paint_iff {height : Nat} {lines : List Line} :
    lines.flatMap paintLine <+: paint height lines ↔ (lines.flatMap paintLine).length ≤ height := by
  constructor
  · intro kept
    exact length_paint height lines ▸ kept.length_le
  · intro fits
    rw [paint, List.take_of_length_le fits]
    exact List.prefix_append _ _

/-- Rows are painted in the color of their line, or in none. -/
theorem color_of_mem_paintLine {line row : Line} (painted : row ∈ paintLine line) :
    row.color = line.color ∨ row.color = .reset := by
  rw [paintLine_eq] at painted
  split at painted
  · rcases List.mem_cons.mp painted with rfl | same
    · exact .inr rfl
    · exact .inl (congrArg Line.color (List.mem_singleton.mp same))
  · exact .inl (congrArg Line.color (List.mem_singleton.mp painted))

theorem color_ne_of_painted {color : Color} (colored : color ≠ .reset) {lines : List Line}
    (other : ∀ line ∈ lines, line.color ≠ color) : ∀ row ∈ lines.flatMap paintLine, row.color ≠ color := by
  intro row member
  obtain ⟨line, listed, painted⟩ := List.mem_flatMap.mp member
  rcases color_of_mem_paintLine painted with same | plain
  · rw [same]
    exact other line listed
  · rw [plain]
    exact Ne.symm colored

/-- Of a line that is alone in its color, the screen shows one row, unless that is too far down. -/
theorem filter_paint {color : Color} (colored : color ≠ .reset) {above below : List Line} {line : Line}
    (solid : isGap line.text = false) (own : line.color = color)
    (before : ∀ other ∈ above, other.color ≠ color) (behind : ∀ other ∈ below, other.color ≠ color)
    (height : Nat) :
    (paint height (above ++ line :: below)).filter (·.color = color) =
      if (above.flatMap paintLine).length < height then [line] else [] := by
  have painted : (above ++ line :: below).flatMap paintLine
      = above.flatMap paintLine ++ line :: below.flatMap paintLine := by
    rw [List.flatMap_append, List.flatMap_cons, paintLine_eq, solid]
    rfl
  have top : (above.flatMap paintLine).filter (·.color = color) = [] := by
    simpa [List.filter_eq_nil_iff] using color_ne_of_painted colored before
  have rest (count : Nat) : ((below.flatMap paintLine).take count).filter (·.color = color) = [] := by
    have other := color_ne_of_painted colored behind
    simpa [List.filter_eq_nil_iff] using fun row member => other row (List.mem_of_mem_take member)
  have blank (count : Nat) : (List.replicate count (⟨[], .reset⟩ : Line)).filter (·.color = color) = [] := by
    simp [Ne.symm colored]
  rw [paint, List.filter_append, blank, List.append_nil, painted, List.take_append, List.filter_append]
  split
  · rename_i room
    obtain ⟨count, spare⟩ : ∃ count, height - (above.flatMap paintLine).length = count + 1 :=
      ⟨height - (above.flatMap paintLine).length - 1, by omega⟩
    rw [List.take_of_length_le (Nat.le_of_lt room), top, spare, List.take_succ_cons,
      List.nil_append, List.filter_cons, rest, if_pos (decide_eq_true own)]
  · rename_i full
    have cut : height - (above.flatMap paintLine).length = 0 := by omega
    rw [cut, List.take_zero, List.filter_nil, List.append_nil]
    have part := (List.take_sublist height (above.flatMap paintLine)).filter fun row => row.color = color
    rw [top] at part
    exact List.sublist_nil.mp part

end Parley.Screen
