namespace Parley.Text

/-- The pieces between separators. There is always one more of them than there are separators. -/
def split (separator : Char) : List Char → List (List Char)
  | [] => [[]]
  | c :: rest =>
    if c = separator then [] :: split separator rest
    else
      match split separator rest with
      | [] => [[c]]
      | piece :: more => (c :: piece) :: more

theorem split_ne_nil (separator : Char) (text : List Char) : split separator text ≠ [] := by
  cases text with
  | nil => simp [split]
  | cons c rest =>
    unfold split
    split
    · simp
    · split <;> simp

/-- A separator parts what stands before it from what stands behind it. -/
theorem split_append (separator : Char) (front back : List Char) :
    split separator (front ++ separator :: back) = split separator front ++ split separator back := by
  induction front with
  | nil => simp [split]
  | cons c rest ih =>
    rw [List.cons_append, split, split]
    by_cases same : c = separator
    · rw [if_pos same, if_pos same, ih, List.cons_append]
    · rw [if_neg same, if_neg same, ih]
      cases pieces : split separator rest with
      | nil => exact absurd pieces (split_ne_nil separator rest)
      | cons piece more => rfl

theorem split_of_not_mem {separator : Char} {text : List Char} (whole : separator ∉ text) :
    split separator text = [text] := by
  induction text with
  | nil => rfl
  | cons c rest ih =>
    obtain ⟨other, whole⟩ := List.ne_and_not_mem_of_not_mem_cons whole
    rw [split, if_neg (Ne.symm other), ih whole]

theorem not_mem_of_mem_split {separator : Char} {text piece : List Char} (cut : piece ∈ split separator text) :
    separator ∉ piece := by
  induction text generalizing piece with
  | nil =>
    rw [List.mem_singleton.mp cut]
    exact List.not_mem_nil
  | cons c rest ih =>
    rw [split] at cut
    split at cut
    · rcases List.mem_cons.mp cut with rfl | later
      · exact List.not_mem_nil
      · exact ih later
    · rename_i other
      cases pieces : split separator rest with
      | nil => exact absurd pieces (split_ne_nil separator rest)
      | cons first more =>
        rw [pieces] at ih cut
        rcases List.mem_cons.mp cut with rfl | later
        · exact List.not_mem_cons_of_ne_of_not_mem (Ne.symm other) (ih List.mem_cons_self)
        · exact ih (List.mem_cons_of_mem first later)

theorem mem_of_mem_split {separator c : Char} {text piece : List Char} (cut : piece ∈ split separator text)
    (member : c ∈ piece) : c ∈ text := by
  induction text generalizing piece with
  | nil =>
    rw [List.mem_singleton.mp cut] at member
    cases member
  | cons first rest ih =>
    rw [split] at cut
    split at cut
    · rcases List.mem_cons.mp cut with rfl | later
      · cases member
      · exact List.mem_cons_of_mem first (ih later member)
    · cases pieces : split separator rest with
      | nil => exact absurd pieces (split_ne_nil separator rest)
      | cons head more =>
        rw [pieces] at ih cut
        rcases List.mem_cons.mp cut with rfl | later
        · rcases List.mem_cons.mp member with rfl | member
          · exact List.mem_cons_self
          · exact List.mem_cons_of_mem first (ih List.mem_cons_self member)
        · exact List.mem_cons_of_mem first (ih (List.mem_cons_of_mem head later) member)

end Parley.Text
