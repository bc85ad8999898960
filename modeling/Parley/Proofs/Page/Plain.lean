import Parley.Proofs.Page.Basic

namespace Parley

def plains (text : List Char) (free : ∀ c ∈ text, isDelimiter c = false) : List Piece :=
  text.pmap .plain free

theorem plains_cons {c : Char} {text : List Char} (free : ∀ item ∈ c :: text, isDelimiter item = false) :
    plains (c :: text) free = .plain c (free c List.mem_cons_self) ::
      plains text fun item member => free item (List.mem_cons_of_mem c member) := rfl

@[simp]
theorem contents_plains {text : List Char} (free : ∀ c ∈ text, isDelimiter c = false) :
    contents (plains text free) = text := by
  induction text with
  | nil => rfl
  | cons c text ih =>
    rw [plains_cons, contents, List.flatMap_cons]
    exact congrArg (c :: ·) (ih _)

@[simp]
theorem spell_plains {text : List Char} (free : ∀ c ∈ text, isDelimiter c = false) :
    spell ((plains text free).map .piece) = text := by
  induction text with
  | nil => rfl
  | cons c text ih =>
    rw [plains_cons, List.map_cons, spell_cons, ih]
    rfl

theorem isGap_of_mem_plains {gap : List Char} (blank : ∀ c ∈ gap, Text.isBlank c = true)
    (free : ∀ c ∈ gap, isDelimiter c = false) : ∀ piece ∈ plains gap free, piece.isGap = true := by
  intro piece member
  obtain ⟨c, within, rfl⟩ := List.mem_pmap.mp member
  exact blank c within

theorem isSilent_of_isGap {piece : Piece} (gap : piece.isGap = true) : piece.isSilent = true := by
  cases piece with
  | plain c free => exact gap
  | quoted content closed => simp at gap

/-- Layout before a text begins nothing. -/
theorem voiced_gap {gap : List Piece} (blank : ∀ piece ∈ gap, piece.isGap = true)
    (rest : List Piece) : voiced (gap ++ rest) = voiced rest :=
  List.dropWhile_append_of_pos fun piece member => isSilent_of_isGap (blank piece member)

theorem rdropWhile_gap {gap : List Piece} (blank : ∀ piece ∈ gap, piece.isGap = true)
    (front : List Piece) :
    (front ++ gap).rdropWhile Piece.isGap = front.rdropWhile Piece.isGap := by
  rw [List.rdropWhile, List.reverse_append, List.dropWhile_append_of_pos (by simpa using blank)]
  rfl

/-- The layout around an argument is no part of its text. -/
theorem argumentText_laid {before after : List Piece} (argument : List Piece)
    (front : ∀ piece ∈ before, piece.isGap = true) (back : ∀ piece ∈ after, piece.isGap = true) :
    argumentText (before ++ argument ++ after) = argumentText argument := by
  rw [argumentText, List.append_assoc, voiced_gap front, voiced, List.dropWhile_append]
  split
  · rename_i none
    have none : voiced argument = [] := by simpa [voiced] using none
    have silent : after.dropWhile Piece.isSilent = [] := by
      have gone := voiced_gap back []
      simpa [voiced] using gone
    rw [silent, argumentText, none]
  · rw [rdropWhile_gap back]
    rfl

/-- A text that starts visibly begins with its first character. -/
theorem voiced_plains {text : List Char} (free : ∀ c ∈ text, isDelimiter c = false)
    (starts : text.dropWhile Text.isBlank = text) : voiced (plains text free) = plains text free := by
  cases text with
  | nil => rfl
  | cons c rest =>
    have visible : Text.isBlank c = false := by
      have first := (List.dropWhile_eq_self_iff).mp starts (by simp)
      simpa using first
    simp [plains_cons, voiced, visible]

theorem Text.trimEnd_concat (text : List Char) (c : Char) :
    Text.trimEnd (text ++ [c]) = if Text.isBlank c then Text.trimEnd text else text ++ [c] := by
  induction text with
  | nil => rfl
  | cons first rest ih =>
    rw [List.cons_append, Text.trimEnd, ih]
    cases Text.isBlank c with
    | true => rfl
    | false => cases rest <;> rfl

theorem Text.trimEnd_eq (text : List Char) : Text.trimEnd text = text.rdropWhile Text.isBlank := by
  induction text using List.reverseRecOn with
  | nil => rfl
  | append_singleton text c ih => rw [trimEnd_concat, List.rdropWhile_concat, ih]

/-- A bare argument that nothing can be trimmed off is read as it stands. -/
theorem argumentText_plains {text : List Char} (free : ∀ c ∈ text, isDelimiter c = false)
    (trimmed : Text.trim text = text) : argumentText (plains text free) = text := by
  rw [Text.trim, Text.trimEnd_eq] at trimmed
  have starts : Text.trimStart text = text := by
    have kept : text.Sublist (Text.trimStart text) := by
      have inside := (List.rdropWhile_prefix Text.isBlank (l := Text.trimStart text)).sublist
      rwa [trimmed] at inside
    exact (List.dropWhile_sublist Text.isBlank).antisymm kept
  rw [starts] at trimmed
  rw [argumentText, voiced_plains free starts]
  have ends : (plains text free).rdropWhile Piece.isGap = plains text free := by
    rw [List.rdropWhile_eq_self_iff] at trimmed ⊢
    intro some
    have visible := trimmed (by simpa [plains] using some)
    simpa [plains] using visible
  rw [ends, contents_plains]

@[simp]
theorem argumentText_quoted (content : List Char) (closed : '"' ∉ content) :
    argumentText [.quoted content closed] = content := by
  cases content with
  | nil => rfl
  | cons c rest => simp [argumentText, voiced, List.rdropWhile_singleton]

end Parley
