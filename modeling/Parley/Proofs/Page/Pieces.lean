import Parley.Proofs.Page.Reading

/-! What the pieces of a text leave in the buffer of a draft, stage by stage. Only an argument tells apart
what strings put into it. -/

namespace Parley

namespace Buffer

/-- Layout before an argument is skipped, and a string is put aside as it is. -/
def takeArgument (buffer : Buffer) : Piece → Buffer
  | .plain c _ => if Text.isBlank c && buffer.isEmpty then buffer else buffer.push c
  | .quoted content _ => (buffer.append content).hold

def argument (pieces : List Piece) : Buffer := pieces.foldl takeArgument empty

theorem argument_append (pieces : List Piece) (last : Piece) :
    argument (pieces ++ [last]) = (argument pieces).takeArgument last := by
  simp [argument]

theorem chars_push (buffer : Buffer) (c : Char) : (buffer.push c).chars = buffer.chars ++ [c] := by
  simp [chars, push]

theorem chars_hold (buffer : Buffer) : buffer.hold.chars = buffer.chars := by simp [chars, hold]

theorem chars_append (buffer : Buffer) (text : List Char) :
    (buffer.append text).chars = buffer.chars ++ text := by
  simp [chars, append]

theorem isEmpty_eq (buffer : Buffer) : buffer.isEmpty = buffer.chars.isEmpty := by
  rcases buffer with ⟨_ | _, _ | _⟩ <;> simp [isEmpty, chars]

/-- An argument holds what its pieces say from the first one on that begins something. -/
theorem chars_argument (pieces : List Piece) : (argument pieces).chars = contents (voiced pieces) := by
  induction pieces using List.reverseRecOn with
  | nil => rfl
  | append_singleton pieces last ih =>
    rw [argument_append, voiced_snoc]
    cases last with
    | plain c free =>
      rw [takeArgument, isEmpty_eq, ih, isEmpty_contents_voiced, Bool.and_comm, Piece.isSilent_plain]
      split
      · rename_i skipped
        have begun : voiced pieces = [] := by simp_all
        rw [ih, begun]
      · rw [chars_push, ih, contents_append, contents_singleton, Piece.content_plain]
    | quoted content closed =>
      rw [takeArgument, chars_hold, chars_append, ih]
      split
      · rename_i skipped
        have begun : voiced pieces = [] ∧ content = [] := by simpa using skipped
        simp [begun]
      · simp

theorem isEmpty_argument (pieces : List Piece) : (argument pieces).isEmpty = (voiced pieces).isEmpty := by
  rw [isEmpty_eq, chars_argument, isEmpty_contents_voiced]

theorem trimmed_push (buffer : Buffer) (c : Char) :
    (buffer.push c).trimmed = if Text.isBlank c then buffer.trimmed else (buffer.push c).text := by
  cases blank : Text.isBlank c <;> simp [trimmed, push, text, chars, blank]

theorem trimmed_hold (buffer : Buffer) : buffer.hold.trimmed = buffer.text := by
  simp [trimmed, hold, text, chars]

/-- Trimming an argument takes the layout off its end, down to the last string. -/
theorem trimmed_argument (pieces : List Piece) :
    (argument pieces).trimmed = String.ofList (argumentText pieces) := by
  induction pieces using List.reverseRecOn with
  | nil => rfl
  | append_singleton pieces last ih =>
    rw [argument_append, argumentText, voiced_snoc]
    cases last with
    | plain c free =>
      rw [takeArgument, isEmpty_argument, Bool.and_comm, Piece.isSilent_plain]
      split
      · rename_i skipped
        have begun : voiced pieces = [] := by simp_all
        rw [ih, argumentText, begun]
      · rw [List.rdropWhile_concat, trimmed_push, Piece.isGap_plain]
        cases blank : Text.isBlank c with
        | true => exact ih
        | false => simp [text, chars_push, chars_argument]
    | quoted content closed =>
      rw [takeArgument, trimmed_hold, text, chars_append, chars_argument]
      split
      · rename_i skipped
        have begun : voiced pieces = [] ∧ content = [] := by simpa using skipped
        simp [begun]
      · rw [List.rdropWhile_concat_neg _ _ _ (by simp)]
        simp

end Buffer

namespace Draft

variable {options : Options} {total : Counts}

theorem take?_title (pieces : List Piece) (part : Piece) (opened : Bool) :
    take? options total ⟨false, .of (contents pieces), .title opened⟩ (.piece part) =
      some ⟨false, .of (contents (pieces ++ [part])), .title opened⟩ := by
  cases part <;> simp [take?_eq, readPlain, quote?]

/-- A line may go on with a character, and with a string while it is empty. -/
theorem take?_line {line : List Piece} {part : Piece}
    (allowed : part.isPlain = true ∨ contents line = []) (title : String) (branches : List Branch)
    (counts : Counts) (branch : BranchDraft) :
    take? options total ⟨false, .of (contents line), .body title branches counts (.responses branch)⟩
        (.piece part) =
      some ⟨false, .of (contents (line ++ [part])), .body title branches counts (.responses branch)⟩ := by
  cases part with
  | plain c free => simp [take?_eq, readPlain]
  | quoted content closed =>
    have mute : contents line = [] := allowed.resolve_left (by simp [Piece.isPlain])
    simp [take?_eq, quote?, mute]

/-- A name goes on with anything but a space, and has not begun while there is only layout. -/
theorem take?_name {name : List Piece} {part : Piece} (goesOn : part ≠ .space ∨ voiced name = [])
    (title : String) (branches : List Branch) (counts : Counts) (branch : BranchDraft)
    (list : ListDraft) :
    take? options total
        ⟨false, .of (contents (voiced name)), .body title branches counts (.commands branch list)⟩
        (.piece part) =
      some ⟨false, .of (contents (voiced (name ++ [part]))),
        .body title branches counts (.commands branch list)⟩ := by
  rw [take?_eq, voiced_snoc]
  cases skipped : (voiced name).isEmpty && part.isSilent with
  | true =>
    obtain ⟨none, silent⟩ : voiced name = [] ∧ part.isSilent = true := by simpa using skipped
    cases part with
    | plain c free =>
      rw [Piece.isSilent_plain] at silent
      simp [readPlain, none, silent]
    | quoted content closed =>
      have mute : content = [] := by simpa using silent
      simp [quote?, none, mute]
  | false =>
    cases part with
    | plain c free =>
      rw [Piece.isSilent_plain, Bool.and_comm] at skipped
      have other : c ≠ ' ' := by
        rintro rfl
        have none := goesOn.resolve_left (by simp [Piece.space])
        simp [none] at skipped
        exact absurd skipped (by decide)
      simp only [readPlain, Buffer.isEmpty_of, isEmpty_contents_voiced, skipped, other,
        Bool.false_eq_true, ↓reduceIte]
      simp
    | quoted content closed => simp [quote?]

/-- A space ends a name that has begun. -/
theorem take?_space {name : List Piece} (begun : voiced name ≠ []) (title : String)
    (branches : List Branch) (counts : Counts) (branch : BranchDraft) (list : ListDraft) :
    take? options total
        ⟨false, .of (contents (voiced name)), .body title branches counts (.commands branch list)⟩
        (.piece .space) =
      (options.command? (String.ofList (contents (voiced name)))).map fun command =>
        ⟨false, .empty, .body title branches counts (.argument branch list command)⟩ := by
  have held : (voiced name).isEmpty = false := by simpa using begun
  rw [Piece.space, take?_eq]
  simp only [readPlain, Buffer.isEmpty_of, isEmpty_contents_voiced, held, Bool.and_false,
    Bool.false_eq_true, ↓reduceIte, Buffer.text_of]
  cases options.command? (String.ofList (contents (voiced name))) <;> rfl

theorem take?_argument (argument : List Piece) (part : Piece) (title : String) (branches : List Branch)
    (counts : Counts) (branch : BranchDraft) (list : ListDraft) (command : Command) :
    take? options total
        ⟨false, .argument argument, .body title branches counts (.argument branch list command)⟩
        (.piece part) =
      some ⟨false, .argument (argument ++ [part]),
        .body title branches counts (.argument branch list command)⟩ := by
  rw [take?_eq, Buffer.argument_append]
  cases part with
  | plain c free =>
    simp only [readPlain, Buffer.takeArgument]
    split <;> rfl
  | quoted content closed => rfl

end Draft

end Parley
