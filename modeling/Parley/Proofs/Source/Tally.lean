import Parley.Proofs.Source.Balanced
import Parley.Proofs.Source.Pieces

/-! Counting a balanced text. The counts are seen from behind: every closer begins what it ends, so a
reading that goes forward can compare what it has filled with what is still to come. -/

namespace Parley

namespace Counts

/-- The row of a branch from that of what follows its first character. -/
def precedeRow (c : Char) (row : List Nat) : List Nat :=
  match c, row with
  | ')', row => 0 :: row
  | ';', commands :: row => (commands + 1) :: row
  | _, row => row

/-- The counts of a text from those of what follows its first character: what a closer ends begins
there, seen from behind. -/
def precede (c : Char) (later : Counts) : Counts :=
  if c = '}' then [] :: later
  else
    match later with
    | [] => []
    | row :: more => precedeRow c row :: more

theorem precedeRow_other {c : Char} (other : c ≠ ')') (noCommand : c ≠ ';') (row : List Nat) :
    precedeRow c row = row := by
  cases row <;> simp [precedeRow, noCommand]

/-- Openers and the closer of the title count nothing. -/
theorem precede_of_mem {c : Char} (silent : c ∈ ['[', ']', '{', '(']) (later : Counts) :
    precede c later = later := by
  simp only [List.mem_cons, List.not_mem_nil, or_false] at silent
  rcases silent with rfl | rfl | rfl | rfl
  all_goals cases later <;> rfl

/-- Text counts nothing either. -/
theorem precede_plain {c : Char} (free : isDelimiter c = false) (later : Counts) :
    precede c later = later := by
  have loud : c ≠ '}' ∧ c ≠ ')' ∧ c ≠ ';' := by
    refine ⟨?_, ?_, ?_⟩ <;> rintro rfl <;> cases free
  cases later <;> simp [precede, precedeRow, loud]

/-- Inside a branch its row is still to come, and inside a command list so is its place in the row. -/
def Covers : Option Region → Counts → Prop
  | some .branch, [] => False
  | some .commands, [] => False
  | some .commands, [] :: _ => False
  | _, _ => True

end Counts

namespace Source

/-- The counts of a text that starts inside or outside a string, whether or not it is balanced. -/
def tally (quoted : Bool) (text : List Char) : Counts :=
  (outsideStrings quoted text).foldr Counts.precede []

@[simp]
theorem tally_quote (quoted : Bool) (rest : List Char) :
    tally quoted ('"' :: rest) = tally (!quoted) rest := by
  simp [tally, outsideStrings]

theorem tally_inside {c : Char} (unquoted : c ≠ '"') (rest : List Char) :
    tally true (c :: rest) = tally true rest := by
  simp [tally, outsideStrings, unquoted]

theorem tally_outside {c : Char} (unquoted : c ≠ '"') (rest : List Char) :
    tally false (c :: rest) = Counts.precede c (tally false rest) := by
  simp [tally, outsideStrings, unquoted]

theorem tally_string {content : List Char} (closed : '"' ∉ content) (rest : List Char) :
    tally false ('"' :: (content ++ ['"']) ++ rest) = tally false rest := by
  rw [List.cons_append, tally_quote, List.append_assoc]
  induction content with
  | nil => exact tally_quote true rest
  | cons c content ih =>
    obtain ⟨unquoted, closed⟩ := List.ne_and_not_mem_of_not_mem_cons closed
    exact (tally_inside (Ne.symm unquoted) _).trans (ih closed)

def row (branch : List Char) : List Nat := (pieces ')' branch).1.map (List.count ';')

theorem row_cons (c : Char) (branch : List Char) :
    row (c :: branch) = Counts.precedeRow c (row branch) := by
  obtain ⟨closed, unclosed, ends⟩ : ∃ closed unclosed, pieces ')' branch = (closed, unclosed) :=
    ⟨_, _, rfl⟩
  by_cases closes : c = ')'
  · subst closes
    simp [row, pieces_closer, Counts.precedeRow]
  · cases closed with
    | nil => simp [row, ends, pieces_unclosed closes ends, Counts.precedeRow]
    | cons piece more =>
      by_cases separates : c = ';'
      · subst separates
        simp [row, ends, pieces_closed closes ends, Counts.precedeRow]
      · simp [row, ends, pieces_closed closes ends, separates, Counts.precedeRow]

/-- Counting from the back, one character at a time, gives the rows that the pieces give. -/
theorem map_row_pieces (outside : List Char) :
    (pieces '}' outside).1.map row = outside.foldr Counts.precede [] := by
  refine pieces_induction '}' (motive := fun outside closed _ =>
    closed.map row = outside.foldr Counts.precede []) rfl ?_ ?_ ?_ outside
  · intro rest closed _ ih
    rw [List.foldr_cons, ← ih]
    simp [Counts.precede, row, pieces]
  · intro c rest _ other ih
    rw [List.foldr_cons, ← ih]
    simp [Counts.precede, other]
  · intro c rest piece more _ other ih
    rw [List.foldr_cons, ← ih]
    simp [Counts.precede, other, row_cons]

/-- Balance promises the rows that an open region waits for. -/
theorem covers_tally {scope : Option Region} {quoted : Bool} {text : List Char}
    (closes : Balanced scope quoted text) :
    Counts.Covers scope (tally quoted text) := by
  induction closes with
  | done => trivial
  | quote _ ih => rwa [tally_quote]
  | inside unquoted _ ih => rwa [tally_inside unquoted]
  | @outside scope c after rest turn _ ih =>
    rw [tally_outside turn.ne_quote]
    cases turn with
    | plain free => rwa [Counts.precede_plain free]
    | openTitle | closeTitle | openBranch | closeBranch => trivial
    | openList | endCommand =>
      match tally false rest, ih with
      | (_ :: _) :: _, _ => trivial
    | closeList =>
      match tally false rest, ih with
      | _ :: _, _ => trivial

/-- Sections that leave no list outside a branch and no command outside a list. -/
structure Complete (sections : List (List Char) × List Char) : Prop where
  noList : ')' ∉ sections.2
  noCommand : ';' ∉ sections.2
  closed : ∀ branch ∈ sections.1, ';' ∉ (pieces ')' branch).2

theorem stray_list {branch : List Char} :
    ';' ∈ (pieces ')' (')' :: branch)).2 ↔ ';' ∈ (pieces ')' branch).2 := by
  rw [pieces_closer]

/-- A command is left behind the lists of its branch if no list follows. -/
theorem stray_command {branch : List Char} :
    ';' ∈ (pieces ')' (';' :: branch)).2 ↔ row branch = [] ∨ ';' ∈ (pieces ')' branch).2 := by
  obtain ⟨closed, unclosed, ends⟩ : ∃ closed unclosed, pieces ')' branch = (closed, unclosed) :=
    ⟨_, _, rfl⟩
  cases closed with
  | nil => simp [row, ends, pieces_unclosed (show ';' ≠ ')' by decide) ends]
  | cons piece more => simp [row, ends, pieces_closed (show ';' ≠ ')' by decide) ends]

theorem stray_other {c : Char} {branch : List Char} (other : c ≠ ')') (noCommand : c ≠ ';') :
    ';' ∈ (pieces ')' (c :: branch)).2 ↔ ';' ∈ (pieces ')' branch).2 := by
  obtain ⟨closed, unclosed, ends⟩ : ∃ closed unclosed, pieces ')' branch = (closed, unclosed) :=
    ⟨_, _, rfl⟩
  cases closed with
  | nil => simp [pieces_unclosed other ends, ends, Ne.symm noCommand]
  | cons piece more => simp [pieces_closed other ends, ends]

private theorem no_command_left {c : Char} {branch : List Char} (first : ';' ∉ (pieces ')' branch).2)
    (waited : c = ';' → row branch ≠ []) : ';' ∉ (pieces ')' (c :: branch)).2 := by
  by_cases closes : c = ')'
  · subst closes
    rwa [stray_list]
  · by_cases separates : c = ';'
    · subst separates
      rw [stray_command]
      exact not_or.mpr ⟨waited rfl, first⟩
    · rwa [stray_other closes separates]

/-- A list needs a branch to close after it, and a command a list. -/
theorem Complete.cons {c : Char} {rest : List Char} (complete : Complete (pieces '}' rest))
    (list : c = ')' → (pieces '}' rest).1.map row ≠ [])
    (command : c = ';' → ∃ commands later, (pieces '}' rest).1.map row = commands :: later ∧
      commands ≠ []) :
    Complete (pieces '}' (c :: rest)) := by
  obtain ⟨noList, noCommand, closed⟩ := complete
  obtain ⟨branches, trailing, ends⟩ : ∃ branches trailing, pieces '}' rest = (branches, trailing) :=
    ⟨_, _, rfl⟩
  rw [ends] at noList noCommand closed list command
  by_cases closes : c = '}'
  · subst closes
    rw [pieces_closer, ends]
    refine ⟨noList, noCommand, ?_⟩
    intro branch member
    rcases List.mem_cons.mp member with rfl | member
    · simp [pieces]
    · exact closed branch member
  · cases branches with
    | nil =>
      have noEnd : c ≠ ')' := fun same => list same rfl
      have noBreak : c ≠ ';' := by
        intro same
        obtain ⟨commands, later, impossible, _⟩ := command same
        cases impossible
      rw [pieces_unclosed closes ends]
      exact ⟨by simpa [Ne.symm noEnd] using noList, by simpa [Ne.symm noBreak] using noCommand,
        fun _ member => absurd member List.not_mem_nil⟩
    | cons first more =>
      rw [pieces_closed closes ends]
      refine ⟨noList, noCommand, ?_⟩
      intro branch member
      rcases List.mem_cons.mp member with rfl | member
      · refine no_command_left (closed first List.mem_cons_self) ?_
        intro same
        obtain ⟨commands, later, rows, waiting⟩ := command same
        cases rows
        exact waiting
      · exact closed branch (List.mem_cons_of_mem first member)

theorem complete_of_balanced {scope : Option Region} {quoted : Bool} {text : List Char}
    (closes : Balanced scope quoted text) : Complete (pieces '}' (outsideStrings quoted text)) := by
  induction closes with
  | done => exact ⟨nofun, nofun, nofun⟩
  | quote _ ih => simpa [outsideStrings] using ih
  | inside unquoted _ ih => simpa [outsideStrings, unquoted] using ih
  | @outside scope c after rest turn later ih =>
    have covers := covers_tally later
    rw [tally, ← map_row_pieces] at covers
    have read : outsideStrings false (c :: rest) = c :: outsideStrings false rest := by
      simp [outsideStrings, turn.ne_quote]
    rw [read]
    refine ih.cons ?_ ?_
    · rintro rfl
      cases turn with
      | closeList =>
        intro none
        rw [none] at covers
        exact covers
      | plain free => exact absurd free (by decide)
    · rintro rfl
      cases turn with
      | endCommand =>
        match rows : (pieces '}' (outsideStrings false rest)).1.map row, covers with
        | (command :: commands) :: later, _ => exact ⟨_, _, rfl, nofun⟩
      | plain free => exact absurd free (by decide)

/-- Counting by sections: what of them is refused, and otherwise their rows. -/
theorem count_eq (text : List Char) :
    let sections := pieces '}' (outsideStrings false text)
    count text =
      if ')' ∈ sections.2 then .error ⟨.count .strayList, none⟩
      else if ';' ∈ sections.2 ∨ ∃ branch ∈ sections.1, ';' ∈ (pieces ')' branch).2 then
        .error ⟨.count .strayCommand, none⟩
      else .ok (sections.1.map row) := by
  have rows : (fun branch => (pieces ')' branch).1.map (List.count ';')) = row := rfl
  simp [count, Function.comp_def, rows]

/-- Complete sections are counted, and no others. -/
theorem count_of_complete {text : List Char} (complete : Complete (pieces '}' (outsideStrings false text))) :
    count text = .ok ((pieces '}' (outsideStrings false text)).1.map row) := by
  rw [count_eq, if_neg complete.noList, if_neg]
  rintro (stray | ⟨branch, member, stray⟩)
  · exact complete.noCommand stray
  · exact complete.closed branch member stray

/-- The sections of a balanced text are never refused, and counting them from the back gives the same
counts. -/
theorem count_of_balanced {text : List Char} (closes : Balanced none false text) :
    count text = .ok (tally false text) := by
  rw [count_of_complete (complete_of_balanced closes), map_row_pieces]
  rfl

end Source

end Parley
