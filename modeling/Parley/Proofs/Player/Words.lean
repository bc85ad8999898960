import Parley.Proofs.Player.Wrap

namespace Parley.Text

def unspaced (text : List Char) : List Char := text.filter (· ≠ ' ')

@[simp] theorem unspaced_append (front back : List Char) :
    unspaced (front ++ back) = unspaced front ++ unspaced back := List.filter_append front back

@[simp] theorem unspaced_space (text : List Char) : unspaced (' ' :: text) = unspaced text := by
  simp [unspaced]

theorem unspaced_cons {c : Char} (spoken : c ≠ ' ') (text : List Char) :
    unspaced (c :: text) = c :: unspaced text := by
  simp [unspaced, spoken]

/-- The pieces between spaces say what the text says. -/
theorem unspaced_flatten_split (text : List Char) :
    unspaced (split ' ' text).flatten = unspaced text := by
  induction text with
  | nil => rfl
  | cons c rest ih =>
    rw [split]
    split
    · rename_i space
      rw [space, List.flatten_cons, List.nil_append, unspaced_space, ih]
    · rename_i spoken
      cases pieces : split ' ' rest with
      | nil => exact absurd pieces (split_ne_nil ' ' rest)
      | cons piece more =>
        rw [pieces, List.flatten_cons] at ih
        rw [List.flatten_cons, List.cons_append, unspaced_cons spoken, unspaced_cons spoken, ih]

/-- A longest run without spaces, between what stands before it and what stands behind it. -/
structure IsWord (before word after : List Char) : Prop where
  spoken : ' ' ∉ word
  begins : ∀ c ∈ before.getLast?, c = ' '
  ends : ∀ c ∈ after.head?, c = ' '

/-- The spaces beside a word cut it out of its text. -/
theorem IsWord.split_eq {before word after : List Char} (isWord : IsWord before word after) :
    ∃ front back, split ' ' (before ++ word ++ after) = front ++ word :: back ∧
      unspaced front.flatten = unspaced before ∧ unspaced back.flatten = unspaced after := by
  obtain ⟨back, behind, later⟩ : ∃ back, split ' ' (word ++ after) = word :: back ∧
      unspaced back.flatten = unspaced after := by
    cases after with
    | nil => exact ⟨[], by rw [List.append_nil, split_of_not_mem isWord.spoken], rfl⟩
    | cons c rest =>
      obtain rfl : c = ' ' := isWord.ends c rfl
      refine ⟨split ' ' rest, ?_, ?_⟩
      · rw [split_append, split_of_not_mem isWord.spoken]
        rfl
      · rw [unspaced_flatten_split, unspaced_space]
  rw [List.append_assoc]
  cases last : before.getLast? with
  | none =>
    obtain rfl := List.getLast?_eq_none_iff.mp last
    exact ⟨[], back, behind, rfl, later⟩
  | some c =>
    obtain rfl : c = ' ' := isWord.begins c last
    obtain ⟨front, rfl⟩ := List.getLast?_eq_some_iff.mp last
    refine ⟨split ' ' front, back, ?_, ?_, later⟩
    · rw [List.append_assoc, List.singleton_append, split_append, behind]
    · rw [unspaced_flatten_split, unspaced_append, unspaced_space]
      exact (List.append_nil _).symm

namespace Wrapping

/-- What wrapping can do to the rows: it breaks off a row that holds something, and it writes at the end of the last.
The text is what was written, breaks apart. -/
inductive Writes : Wrapping → List Char → Wrapping → Prop
  | done (wrapping : Wrapping) : Writes wrapping [] wrapping
  | breakRow {first last : Wrapping} {text : List Char} (writes : Writes first text last)
      (filled : last.row ≠ []) : Writes first text last.breakRow
  | write {first last : Wrapping} {text : List Char} (writes : Writes first text last) (c : Char) :
      Writes first (text ++ [c]) { last with row := last.row ++ [c] }

namespace Writes

variable {first middle last : Wrapping} {text more : List Char}

theorem trans (writes : Writes first text middle) (goesOn : Writes middle more last) :
    Writes first (text ++ more) last := by
  induction goesOn with
  | done => rwa [List.append_nil]
  | breakRow _ filled ih => exact ih.breakRow filled
  | write _ c ih =>
    rw [← List.append_assoc]
    exact ih.write c

/-- All of the text went to the row that was the last, or a break sent some of it to rows below. -/
theorem row_cases (writes : Writes first text last) :
    (last.full = first.full ∧ last.row = first.row ++ text) ∨
      ∃ right below, last.full = first.full ++ (first.row ++ right) :: below ∧
        text = right ++ below.flatten ++ last.row := by
  induction writes with
  | done => exact .inl ⟨rfl, (List.append_nil _).symm⟩
  | @breakRow last text _ _ ih =>
    rcases ih with ⟨full, row⟩ | ⟨right, below, full, rfl⟩
    · refine .inr ⟨text, [], ?_, ?_⟩
      · rw [Wrapping.breakRow, full, row]
      · simp [Wrapping.breakRow]
    · refine .inr ⟨right, below ++ [last.row], ?_, ?_⟩
      · rw [Wrapping.breakRow, full, List.append_assoc, List.cons_append]
      · simp [Wrapping.breakRow]
  | @write last text _ c ih =>
    rcases ih with ⟨full, row⟩ | ⟨right, below, full, rfl⟩
    · exact .inl ⟨full, by rw [row, List.append_assoc]⟩
    · exact .inr ⟨right, below, full, List.append_assoc ..⟩

/-- What stands in a row stays there; the rest of the text comes behind it. -/
theorem rows_eq (writes : Writes first text last) :
    ∃ right below, last.rows = first.full ++ (first.row ++ right) :: below ∧
      text = right ++ below.flatten := by
  rcases writes.row_cases with ⟨full, row⟩ | ⟨right, below, full, said⟩
  · exact ⟨text, [], by rw [rows, full, row], (List.append_nil text).symm⟩
  · refine ⟨right, below ++ [last.row], ?_, ?_⟩
    · rw [rows, full, List.append_assoc, List.cons_append]
    · rw [said, List.flatten_append, List.append_assoc, List.flatten_singleton]

theorem flatten_rows (writes : Writes ⟨[], []⟩ text last) : last.rows.flatten = text := by
  obtain ⟨right, below, same, said⟩ := writes.rows_eq
  rw [same, said, List.nil_append, List.nil_append, List.flatten_cons]

theorem filled (writes : Writes first text last) (before : [] ∉ first.full) : [] ∉ last.full := by
  induction writes with
  | done => exact before
  | breakRow _ filled ih =>
    rw [Wrapping.breakRow, List.mem_append, List.mem_singleton, not_or]
    exact ⟨ih, Ne.symm filled⟩
  | write _ _ ih => exact ih

end Writes

theorem writes_makeRoom (width : Nat) (wrapping : Wrapping) (word : List Char) :
    ∃ gap, unspaced gap = [] ∧ Writes wrapping gap (wrapping.makeRoom width word) := by
  rcases wrapping.makeRoom_cases width word with ⟨filled, _, room⟩ | ⟨_, room⟩ | ⟨_, _, room⟩
  · rw [room]
    exact ⟨[], rfl, (Writes.done wrapping).breakRow filled⟩
  · rw [room]
    exact ⟨[], rfl, .done wrapping⟩
  · rw [room]
    exact ⟨[' '], rfl, (Writes.done wrapping).write ' '⟩

variable {width : Nat}

/-- There is room for the whole word, unless it is wider than a row. -/
theorem makeRoom_fits (wrapping : Wrapping) {word : List Char} (fits : word.length ≤ width) :
    (wrapping.makeRoom width word).row.length + word.length ≤ width := by
  rcases wrapping.makeRoom_cases width word with ⟨_, _, room⟩ | ⟨empty, room⟩ | ⟨_, behind, room⟩
  · rw [room]
    simpa [Wrapping.breakRow] using fits
  · rw [room]
    simpa [empty] using fits
  · rw [room]
    simpa using behind

theorem writes_pushChar (positive : 0 < width) (wrapping : Wrapping) (c : Char) :
    Writes wrapping [c] (wrapping.pushChar width c) := by
  unfold pushChar
  split
  · rename_i full
    have filled : wrapping.row ≠ [] := List.ne_nil_of_length_pos (full ▸ positive)
    exact ((Writes.done wrapping).breakRow filled).write c
  · exact (Writes.done wrapping).write c

theorem writes_pushChars (positive : 0 < width) (wrapping : Wrapping) (word : List Char) :
    Writes wrapping word (word.foldl (pushChar width) wrapping) := by
  induction word generalizing wrapping with
  | nil => exact .done wrapping
  | cons c rest ih => exact (writes_pushChar positive wrapping c).trans (ih _)

/-- A word for which there is room does not break the row. -/
theorem foldl_pushChar_of_fits {wrapping : Wrapping} {word : List Char}
    (fits : wrapping.row.length + word.length ≤ width) :
    word.foldl (pushChar width) wrapping = { wrapping with row := wrapping.row ++ word } := by
  induction word generalizing wrapping with
  | nil => rw [List.foldl_nil, List.append_nil]
  | cons c rest ih =>
    rw [List.length_cons] at fits
    have free : wrapping.row.length ≠ width := by omega
    rw [List.foldl_cons, pushChar, if_neg free, ih]
    · rw [List.append_assoc, List.singleton_append]
    · rw [List.length_append, List.length_singleton]
      omega

theorem exists_pushWord_of_fits (wrapping : Wrapping) {word : List Char} (fits : word.length ≤ width) :
    ∃ gap place, unspaced gap = [] ∧ Writes wrapping gap place ∧
      wrapping.pushWord width word = { place with row := place.row ++ word } := by
  obtain ⟨gap, spaces, room⟩ := writes_makeRoom width wrapping word
  refine ⟨gap, _, spaces, room, ?_⟩
  rw [pushWord_eq, foldl_pushChar_of_fits (makeRoom_fits wrapping fits)]

/-- Nothing but spaces is written between the words. -/
theorem writes_pushWords (positive : 0 < width) (wrapping : Wrapping) (words : List (List Char)) :
    ∃ text, unspaced text = unspaced words.flatten ∧
      Writes wrapping text (words.foldl (pushWord width) wrapping) := by
  induction words generalizing wrapping with
  | nil => exact ⟨[], rfl, .done wrapping⟩
  | cons word rest ih =>
    obtain ⟨gap, spaces, room⟩ := writes_makeRoom width wrapping word
    have written := room.trans (writes_pushChars positive _ word)
    obtain ⟨text, said, goesOn⟩ := ih (wrapping.pushWord width word)
    refine ⟨gap ++ word ++ text, ?_, written.trans goesOn⟩
    rw [List.flatten_cons, unspaced_append, unspaced_append, unspaced_append, spaces, said, List.nil_append]

end Wrapping

theorem wrap_eq {width : Nat} (positive : 0 < width) (text : List Char) :
    wrap width text = ((split ' ' text).foldl (Wrapping.pushWord width) ⟨[], []⟩).rows := by
  rw [wrap, if_neg (Nat.ne_of_gt positive)]

/-- The rows of a text are written from nothing, and say what it says. -/
theorem exists_writes {width : Nat} (positive : 0 < width) (text : List Char) :
    ∃ written last, Wrapping.Writes ⟨[], []⟩ written last ∧ wrap width text = last.rows ∧
      unspaced written = unspaced text := by
  obtain ⟨written, said, writes⟩ := Wrapping.writes_pushWords positive ⟨[], []⟩ (split ' ' text)
  exact ⟨written, _, writes, wrap_eq positive text, said.trans (unspaced_flatten_split text)⟩

theorem unspaced_flatten_wrap {width : Nat} (positive : 0 < width) (text : List Char) :
    unspaced (wrap width text).flatten = unspaced text := by
  obtain ⟨written, last, writes, rows, said⟩ := exists_writes positive text
  rw [rows, writes.flatten_rows, said]

/-- A row is broken off only if something stands in it, and no row begins with a space. -/
theorem exists_ne_space_of_mem_dropLast_wrap {width : Nat} (positive : 0 < width) {text row : List Char}
    (member : row ∈ (wrap width text).dropLast) : ∃ c ∈ row, c ≠ ' ' := by
  obtain ⟨written, last, writes, rows, _⟩ := exists_writes positive text
  rw [rows, Wrapping.rows, List.dropLast_concat] at member
  have listed : row ∈ wrap width text := rows ▸ List.mem_append_left [last.row] member
  have begins := (isRow_of_mem_wrap positive listed).begins
  cases row with
  | nil => exact absurd member (writes.filled List.not_mem_nil)
  | cons c rest => exact ⟨c, List.mem_cons_self, fun space => begins (congrArg some space)⟩

/-- A word that fits a row is in one row, between what the text has before it and behind it. -/
theorem exists_row_of_isWord {width : Nat} (positive : 0 < width) {before word after : List Char}
    (isWord : IsWord before word after) (fits : word.length ≤ width) :
    ∃ above left right below,
      wrap width (before ++ word ++ after) = above ++ (left ++ word ++ right) :: below ∧
        unspaced (above.flatten ++ left) = unspaced before ∧
        unspaced (right ++ below.flatten) = unspaced after := by
  obtain ⟨front, back, pieces, earlier, later⟩ := isWord.split_eq
  obtain ⟨head, said, begun⟩ := Wrapping.writes_pushWords positive ⟨[], []⟩ front
  obtain ⟨gap, place, spaces, room, pushed⟩ := Wrapping.exists_pushWord_of_fits
    (front.foldl (Wrapping.pushWord width) ⟨[], []⟩) fits
  obtain ⟨tail, rest, goesOn⟩ := Wrapping.writes_pushWords positive
    ((front.foldl (Wrapping.pushWord width) ⟨[], []⟩).pushWord width word) back
  rw [pushed] at goesOn
  obtain ⟨right, below, rows, whole⟩ := goesOn.rows_eq
  refine ⟨place.full, place.row, right, below, ?_, ?_, ?_⟩
  · rw [wrap_eq positive, pieces, List.foldl_append, List.foldl_cons, pushed, rows]
  · have written := (begun.trans room).flatten_rows
    rw [Wrapping.rows, List.flatten_append, List.flatten_singleton] at written
    rw [written, unspaced_append, spaces, said, List.append_nil, earlier]
  · rw [← whole, rest, later]

/-- Wrapping loses no text and never overflows: no row is wider than the width, the rows say what the text says, a
word that fits a row is in one row, between the same characters as in the text, and every row but the last holds more
than spaces. -/
theorem wrap_keeps_text {width : Nat} (positive : 0 < width) (text : List Char) :
    (∀ row ∈ wrap width text, row.length ≤ width) ∧
    unspaced (wrap width text).flatten = unspaced text ∧
    (∀ before word after, text = before ++ word ++ after → IsWord before word after → word.length ≤ width →
      ∃ above left right below, wrap width text = above ++ (left ++ word ++ right) :: below ∧
        unspaced (above.flatten ++ left) = unspaced before ∧
        unspaced (right ++ below.flatten) = unspaced after) ∧
    ∀ row ∈ (wrap width text).dropLast, ∃ c ∈ row, c ≠ ' ' := by
  refine ⟨fun row member => (isRow_of_mem_wrap positive member).fits, unspaced_flatten_wrap positive text, ?_,
    fun row => exists_ne_space_of_mem_dropLast_wrap positive⟩
  rintro before word after rfl isWord fits
  exact exists_row_of_isWord positive isWord fits

/-- The last word also stands within the first, which is too wide for a row. -/
theorem wrap_keeps_text_of_chant :
    let before := "  nanana  ".toList
    let text := before ++ "na".toList ++ " ".toList
    0 < 4 ∧ text = before ++ "na".toList ++ " ".toList ∧ IsWord before "na".toList " ".toList ∧
    "na".toList.length ≤ 4 ∧
    (∀ row ∈ wrap 4 text, row.length ≤ 4) ∧
    unspaced (wrap 4 text).flatten = unspaced text ∧
    (∃ above left right below, wrap 4 text = above ++ (left ++ "na".toList ++ right) :: below ∧
      unspaced (above.flatten ++ left) = unspaced before ∧
      unspaced (right ++ below.flatten) = unspaced " ".toList) ∧
    "nana".toList ∈ (wrap 4 text).dropLast ∧ ∃ c ∈ "nana".toList, c ≠ ' ' := by
  intro before text
  have positive : 0 < 4 := by decide
  have isWord : IsWord before "na".toList " ".toList := ⟨by decide, by simp [before], by simp⟩
  have fits : "na".toList.length ≤ 4 := by decide
  have broken : "nana".toList ∈ (wrap 4 text).dropLast := by decide
  obtain ⟨narrow, said, words, full⟩ := wrap_keeps_text positive text
  exact ⟨positive, rfl, isWord, fits, narrow, said, words before _ _ rfl isWord fits, broken, full _ broken⟩

end Parley.Text
