import Parley.Player.Wrap

namespace Parley.Text

theorem length_truncate_le (width : Nat) (text : List Char) : (truncate width text).length ≤ width := by
  unfold truncate
  split
  · assumption
  · split
    · exact Nat.zero_le _
    · rw [List.length_append, List.length_take, List.length_singleton]
      omega

/-- A text is kept as it is, or its end is replaced by an ellipsis. -/
theorem truncate_cases {width : Nat} (positive : 0 < width) (text : List Char) :
    text.length ≤ width ∧ truncate width text = text ∨
      width < text.length ∧ truncate width text = text.take (width - 1) ++ ['…'] := by
  unfold truncate
  split
  · rename_i fits
    exact .inl ⟨fits, rfl⟩
  · rename_i wide
    rw [if_neg (Nat.ne_of_gt positive)]
    exact .inr ⟨Nat.lt_of_not_le wide, rfl⟩

/-- A row of a text: it fits the width, does not begin with a space and is written with the characters of the
text, spaces apart. -/
structure IsRow (width : Nat) (text row : List Char) : Prop where
  fits : row.length ≤ width
  begins : row.head? ≠ some ' '
  written : ∀ c ∈ row, c = ' ' ∨ c ∈ text

theorem isRow_nil (width : Nat) (text : List Char) : IsRow width text [] := ⟨Nat.zero_le _, nofun, nofun⟩

theorem IsRow.snoc {width : Nat} {text row : List Char} (isRow : IsRow width text row) {c : Char}
    (within : row.length < width) (begins : row = [] → c ≠ ' ') (written : c = ' ' ∨ c ∈ text) :
    IsRow width text (row ++ [c]) := by
  refine ⟨?_, ?_, ?_⟩
  · rw [List.length_append]
    exact within
  · cases row with
    | nil => simpa using begins rfl
    | cons first rest => exact isRow.begins
  · exact List.forall_mem_append.mpr ⟨isRow.written, List.forall_mem_singleton.mpr written⟩

namespace Wrapping

/-- The place for a word: the row as it is before the first character of the word is written. -/
def makeRoom (width : Nat) (wrapping : Wrapping) (word : List Char) : Wrapping :=
  let wrapping :=
    if wrapping.row ≠ [] && width < wrapping.row.length + 1 + word.length then wrapping.breakRow
    else wrapping
  if wrapping.row = [] then wrapping else { wrapping with row := wrapping.row ++ [' '] }

theorem pushWord_eq (width : Nat) (wrapping : Wrapping) (word : List Char) :
    wrapping.pushWord width word = word.foldl (pushChar width) (wrapping.makeRoom width word) := rfl

/-- A word starts a row, or stands behind a space that it fits behind. -/
theorem makeRoom_cases (width : Nat) (wrapping : Wrapping) (word : List Char) :
    (wrapping.row ≠ [] ∧ width < wrapping.row.length + 1 + word.length ∧
        wrapping.makeRoom width word = wrapping.breakRow) ∨
      (wrapping.row = [] ∧ wrapping.makeRoom width word = wrapping) ∨
      (wrapping.row ≠ [] ∧ wrapping.row.length + 1 + word.length ≤ width ∧
        wrapping.makeRoom width word = { wrapping with row := wrapping.row ++ [' '] }) := by
  unfold makeRoom
  by_cases empty : wrapping.row = []
  · exact .inr (.inl ⟨empty, by simp [empty]⟩)
  · by_cases tight : width < wrapping.row.length + 1 + word.length
    · exact .inl ⟨empty, tight, by simp [empty, tight, breakRow]⟩
    · exact .inr (.inr ⟨empty, Nat.le_of_not_lt tight, by simp [empty, tight]⟩)

/-- The rows so far are rows of the text. -/
structure Sound (width : Nat) (text : List Char) (wrapping : Wrapping) : Prop where
  full : ∀ row ∈ wrapping.full, IsRow width text row
  row : IsRow width text wrapping.row

namespace Sound

variable {width : Nat} {text : List Char} {wrapping : Wrapping}

theorem breakRow (sound : wrapping.Sound width text) : wrapping.breakRow.Sound width text :=
  ⟨List.forall_mem_append.mpr ⟨sound.full, List.forall_mem_singleton.mpr sound.row⟩, isRow_nil width text⟩

theorem pushChar (sound : wrapping.Sound width text) (positive : 0 < width) {c : Char} (spoken : c ≠ ' ')
    (member : c ∈ text) : (wrapping.pushChar width c).Sound width text := by
  unfold Wrapping.pushChar
  split
  · exact ⟨sound.breakRow.full, (isRow_nil width text).snoc positive (fun _ => spoken) (.inr member)⟩
  · rename_i free
    have within : wrapping.row.length < width := Nat.lt_of_le_of_ne sound.row.fits free
    exact ⟨sound.full, sound.row.snoc within (fun _ => spoken) (.inr member)⟩

theorem pushChars (sound : wrapping.Sound width text) (positive : 0 < width) {word : List Char}
    (spoken : ' ' ∉ word) (members : ∀ c ∈ word, c ∈ text) :
    (word.foldl (Wrapping.pushChar width) wrapping).Sound width text := by
  induction word generalizing wrapping with
  | nil => exact sound
  | cons c rest ih =>
    obtain ⟨other, spoken⟩ := List.ne_and_not_mem_of_not_mem_cons spoken
    obtain ⟨member, members⟩ := List.forall_mem_cons.mp members
    exact ih (sound.pushChar positive (Ne.symm other) member) spoken members

/-- A space is only written where the first character of the word behind it still fits. -/
theorem pushWord (sound : wrapping.Sound width text) (positive : 0 < width) {word : List Char}
    (spoken : ' ' ∉ word) (members : ∀ c ∈ word, c ∈ text) :
    (wrapping.pushWord width word).Sound width text := by
  rw [pushWord_eq]
  apply pushChars _ positive spoken members
  rcases wrapping.makeRoom_cases width word with ⟨_, _, room⟩ | ⟨_, room⟩ | ⟨filled, fits, room⟩
  · rw [room]
    exact sound.breakRow
  · rw [room]
    exact sound
  · have within : wrapping.row.length < width := by omega
    rw [room]
    exact ⟨sound.full, sound.row.snoc within (fun empty => absurd empty filled) (.inl rfl)⟩

theorem pushWords (sound : wrapping.Sound width text) (positive : 0 < width) {words : List (List Char)}
    (pieces : ∀ word ∈ words, word ∈ split ' ' text) :
    (words.foldl (Wrapping.pushWord width) wrapping).Sound width text := by
  induction words generalizing wrapping with
  | nil => exact sound
  | cons word rest ih =>
    obtain ⟨piece, pieces⟩ := List.forall_mem_cons.mp pieces
    have spoken : ' ' ∉ word := not_mem_of_mem_split piece
    exact ih (sound.pushWord positive spoken fun _ member => mem_of_mem_split piece member) pieces

end Sound

end Wrapping

theorem isRow_of_mem_wrap {width : Nat} (positive : 0 < width) {text row : List Char}
    (member : row ∈ wrap width text) : IsRow width text row := by
  have begun : Wrapping.Sound width text ⟨[], []⟩ := ⟨nofun, isRow_nil width text⟩
  have sound := begun.pushWords positive fun word (piece : word ∈ split ' ' text) => piece
  rw [wrap, if_neg (Nat.ne_of_gt positive)] at member
  rcases List.mem_append.mp member with full | last
  · exact sound.full row full
  · rw [List.mem_singleton.mp last]
    exact sound.row

end Parley.Text
