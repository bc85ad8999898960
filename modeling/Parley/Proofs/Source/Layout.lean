import Parley.Proofs.Source.Balanced

/-! Layout decides nothing. What stripping drops is never seen by the balance, and what it keeps it keeps
again, so the later stages may as well begin at the text that is left. -/

namespace Parley

namespace Layout

theorem after_free {c : Char} (free : isDelimiter c = false) (layout : Layout) :
    layout.after c = layout := by
  unfold after
  rw [if_neg (ne_quote_of_free free), ite_eq_left_iff]
  intro _
  split
  case h_5 => rfl
  all_goals exact absurd free (by decide)

theorem after_inside {c : Char} (unquoted : c ≠ '"') (region : Option Region) :
    after ⟨true, region⟩ c = ⟨true, region⟩ := by
  unfold after
  rw [if_neg unquoted]
  rfl

/-- What is dropped is blank, and changes nothing. -/
theorem after_dropped {layout : Layout} {c : Char} (dropped : layout.keeps c = false) :
    isDelimiter c = false ∧ layout.after c = layout := by
  have free := isDelimiter_of_isBlank (isBlank_of_dropped dropped)
  exact ⟨free, after_free free layout⟩

/-- A text without a blank that a layout would drop. -/
inductive Bare : Layout → List Char → Prop
  | nil : Bare layout []
  | cons (kept : layout.keeps c = true) (later : Bare (layout.after c) rest) : Bare layout (c :: rest)

/-- What is dropped is seen by no layout, so what is left is as bare as if it had never been there. -/
theorem bare_keep (layout : Layout) (text : List Char) : layout.Bare (layout.keep text) := by
  induction text generalizing layout with
  | nil => exact .nil
  | cons c rest ih =>
    rw [keep]
    cases kept : layout.keeps c with
    | true => exact .cons kept (ih _)
    | false =>
      have unseen := (after_dropped kept).2
      rw [if_neg Bool.false_ne_true, unseen]
      exact ih layout

theorem Bare.stripFrom {layout : Layout} {text : List Char} (bare : layout.Bare text) (place : Place) :
    layout.stripFrom (Source.locateFrom place text) = Source.locateFrom place text := by
  induction bare generalizing place with
  | nil => rfl
  | cons kept _ ih => rw [Source.locateFrom, Layout.stripFrom, if_pos kept, ih]

end Layout

namespace Balance

theorem read_plain (balance : Balance) {mark : Mark} (free : isDelimiter mark.char = false) :
    balance.read mark = .ok balance := by
  unfold read
  rw [if_neg (ne_quote_of_free free), balance.nesting.read_plain free]
  split <;> rfl

theorem foldlM_stripFrom (layout : Layout) (marks : List Mark) (balance : Balance) :
    (layout.stripFrom marks).foldlM read balance = marks.foldlM read balance := by
  induction marks generalizing layout balance with
  | nil => rfl
  | cons mark rest ih =>
    rw [Layout.stripFrom, List.foldlM_cons]
    cases kept : layout.keeps mark.char with
    | true =>
      rw [if_pos rfl, List.foldlM_cons]
      exact congrArg _ (funext (ih _))
    | false =>
      rw [if_neg Bool.false_ne_true, balance.read_plain (Layout.after_dropped kept).1, ih]
      rfl

end Balance

namespace Source

theorem checkBalance_strip (source : List Char) :
    checkBalance (strip source) = checkBalance (locate source) := by
  rw [checkBalance, strip, Balance.foldlM_stripFrom]
  rfl

/-- The stripped text is all that is ever looked at. -/
theorem normalize_eq (source : List Char) :
    normalize source = do
      checkBalance (strip source)
      return strip source := by
  rw [normalize, checkBalance_strip]

/-- What has been stripped is left as it is, every character at its own place. -/
theorem strip_text_strip (source : List Char) :
    strip (text (strip source)) = locate (text (strip source)) := by
  rw [text_strip]
  exact (Layout.bare_keep Layout.start source).stripFrom Place.first

theorem text_strip_text_strip (source : List Char) :
    text (strip (text (strip source))) = text (strip source) := by
  rw [strip_text_strip, text_locate]

end Source

end Parley
