import Mathlib.Algebra.GroupWithZero.Nat
import Mathlib.Data.List.Basic
import Parley.Source.Sections

/-! Pieces of a text, each ended by a closer, and what is left behind the last one. They are read off from the
back, where every closer begins a piece. -/

namespace Parley

namespace Source

theorem pieces_closer (closer : Char) (rest : List Char) :
    pieces closer (closer :: rest) = ([] :: (pieces closer rest).1, (pieces closer rest).2) := by
  simp [pieces]

theorem pieces_unclosed {closer c : Char} {rest unclosed : List Char} (other : c ≠ closer)
    (ends : pieces closer rest = ([], unclosed)) :
    pieces closer (c :: rest) = ([], c :: unclosed) := by
  simp [pieces, other, ends]

theorem pieces_closed {closer c : Char} {rest piece unclosed : List Char}
    {more : List (List Char)} (other : c ≠ closer)
    (ends : pieces closer rest = (piece :: more, unclosed)) :
    pieces closer (c :: rest) = ((c :: piece) :: more, unclosed) := by
  simp [pieces, other, ends]

/-- Taking a text apart from the back, a closer begins a piece, and any other character stands in the first piece
or, where there is none, in what no closer ends. -/
theorem pieces_induction {motive : List Char → List (List Char) → List Char → Prop} (closer : Char)
    (nil : motive [] [] [])
    (closes : ∀ rest closed unclosed, motive rest closed unclosed →
      motive (closer :: rest) ([] :: closed) unclosed)
    (behind : ∀ c rest unclosed, c ≠ closer → motive rest [] unclosed → motive (c :: rest) [] (c :: unclosed))
    (inside : ∀ c rest piece more unclosed, c ≠ closer → motive rest (piece :: more) unclosed →
      motive (c :: rest) ((c :: piece) :: more) unclosed)
    (text : List Char) : motive text (pieces closer text).1 (pieces closer text).2 := by
  induction text with
  | nil => exact nil
  | cons c rest ih =>
    by_cases same : c = closer
    · subst same
      rw [pieces_closer]
      exact closes rest _ _ ih
    · obtain ⟨closed, unclosed, ends⟩ : ∃ closed unclosed, pieces closer rest = (closed, unclosed) :=
        ⟨_, _, rfl⟩
      rw [ends] at ih
      cases closed with
      | nil =>
        rw [pieces_unclosed same ends]
        exact behind c rest unclosed same ih
      | cons piece more =>
        rw [pieces_closed same ends]
        exact inside c rest piece more unclosed same ih

theorem length_pieces (closer : Char) (text : List Char) :
    (pieces closer text).1.length = text.count closer := by
  refine pieces_induction closer (motive := fun text closed _ => closed.length = text.count closer)
    rfl ?_ ?_ ?_ text
  · intro rest closed _ ih
    rw [List.length_cons, ih, List.count_cons_self]
  · intro c rest _ other ih
    rw [ih, List.count_cons_of_ne other]
  · intro c rest piece more _ other ih
    rw [List.count_cons_of_ne other, ← ih]
    rfl

/-- Whatever does not close anything stands in one of the pieces, or behind them. -/
theorem count_pieces {closer c : Char} (other : c ≠ closer) (text : List Char) :
    text.count c = ((pieces closer text).1.map (List.count c)).sum + (pieces closer text).2.count c := by
  refine pieces_induction closer (motive := fun text closed unclosed =>
    text.count c = (closed.map (List.count c)).sum + unclosed.count c) rfl ?_ ?_ ?_ text
  · intro rest closed unclosed ih
    rw [List.count_cons_of_ne (Ne.symm other), ih]
    simp
  · intro d rest unclosed _ ih
    simp only [List.count_cons, ih]
    simp
  · intro d rest piece more unclosed _ ih
    simp only [List.count_cons, ih, List.map_cons, List.sum_cons]
    omega

theorem pieces_join (closer : Char) (text : List Char) :
    (pieces closer text).1.flatMap (· ++ [closer]) ++ (pieces closer text).2 = text := by
  refine pieces_induction closer (motive := fun text closed unclosed =>
    closed.flatMap (· ++ [closer]) ++ unclosed = text) rfl ?_ ?_ ?_ text
  · intro rest closed unclosed ih
    exact congrArg (closer :: ·) ih
  · intro c rest unclosed _ ih
    exact congrArg (c :: ·) ih
  · intro c rest piece more unclosed _ ih
    exact congrArg (c :: ·) ih

theorem closer_not_mem_unclosed (closer : Char) (text : List Char) : closer ∉ (pieces closer text).2 := by
  refine pieces_induction closer (motive := fun _ _ unclosed => closer ∉ unclosed)
    List.not_mem_nil ?_ ?_ ?_ text
  · intro _ _ _ ih
    exact ih
  · intro c _ _ other ih
    exact List.not_mem_cons_of_ne_of_not_mem (Ne.symm other) ih
  · intro _ _ _ _ _ _ ih
    exact ih

/-- What stands behind the last closer has nothing before it, or the closer. -/
theorem exists_front_unclosed (closer : Char) (text : List Char) :
    ∃ front, text = front ++ (pieces closer text).2 ∧ (front = [] ∨ ∃ earlier, front = earlier ++ [closer]) := by
  refine ⟨_, (pieces_join closer text).symm, ?_⟩
  rcases List.eq_nil_or_concat (pieces closer text).1 with none | ⟨closed, last, some⟩
  · exact .inl (by rw [none]; rfl)
  · right
    rw [some]
    exact ⟨closed.flatMap (· ++ [closer]) ++ last, by simp⟩

/-- A character is left behind the last closer exactly when it stands somewhere with no closer behind it. -/
theorem mem_unclosed_iff {closer c : Char} (other : c ≠ closer) (text : List Char) :
    c ∈ (pieces closer text).2 ↔ ∃ before after, text = before ++ c :: after ∧ closer ∉ after := by
  obtain ⟨front, split, behind⟩ := exists_front_unclosed closer text
  have unclosed := closer_not_mem_unclosed closer text
  constructor
  · intro member
    obtain ⟨before, after, same⟩ := List.append_of_mem member
    rw [same] at split unclosed
    exact ⟨front ++ before, after, by rw [split, List.append_assoc],
      fun closes => unclosed (by simp [closes])⟩
  · rintro ⟨before, after, same, last⟩
    rcases List.append_eq_append_iff.mp (split.symm.trans same) with ⟨later, _, tail⟩ | ⟨later, begun, tail⟩
    · rw [tail]
      simp
    · cases later with
      | nil =>
        rw [← List.nil_append (pieces closer text).2, ← tail]
        exact List.mem_cons_self
      | cons d later =>
        obtain ⟨rfl, rest⟩ := List.cons.inj tail
        rcases behind with rfl | ⟨earlier, rfl⟩
        · simp at begun
        · have ends : closer ∈ c :: later := by
            have last := congrArg List.getLast? begun
            rw [List.getLast?_concat, List.getLast?_append_of_ne_nil _ (List.cons_ne_nil c later)] at last
            exact List.mem_of_getLast? last.symm
          rw [rest] at last
          rcases List.mem_cons.mp ends with same | within
          · exact absurd same.symm other
          · exact absurd (List.mem_append_left _ within) last

end Source

end Parley
