import Mathlib.Data.List.DropRight
import Parley.Source.Layout

namespace Parley

@[simp]
theorem Place.index_after (place : Place) (c : Char) : (place.after c).index = place.index + 1 := by
  unfold after
  split <;> rfl

/-- A mark says of a text only what is so: which character stands behind `index` others, how many lines end
before it, and how many characters of its own line do. -/
structure Mark.StandsIn (text : List Char) (mark : Mark) : Prop where
  within : mark.place.index < text.length
  char : text[mark.place.index]? = some mark.char
  line : mark.place.line = 1 + (text.take mark.place.index).count '\n'
  column : mark.place.column = 1 + ((text.take mark.place.index).rtakeWhile (· ≠ '\n')).length

namespace Source

theorem foldl_after_first (front : List Char) :
    front.foldl Place.after Place.first =
      ⟨front.length, 1 + front.count '\n', 1 + (front.rtakeWhile (· ≠ '\n')).length⟩ := by
  induction front using List.reverseRecOn with
  | nil => rfl
  | append_singleton front c ih =>
    rw [List.foldl_append, ih, List.foldl_cons, List.foldl_nil, Place.after, List.length_append,
      List.count_append]
    split
    · rename_i ends
      rw [List.rtakeWhile_concat_neg _ _ _ (by simp [ends]), ends]
      rfl
    · rename_i goes
      rw [List.rtakeWhile_concat_pos _ _ _ (by simpa using goes), List.count_singleton,
        if_neg (by simpa using goes), List.length_append]
      rfl

theorem locateFrom_append (place : Place) (front back : List Char) :
    locateFrom place (front ++ back) =
      locateFrom place front ++ locateFrom (front.foldl Place.after place) back := by
  induction front generalizing place with
  | nil => rfl
  | cons c rest ih => rw [List.cons_append, locateFrom, ih, locateFrom, List.foldl_cons, List.cons_append]

theorem map_index_locateFrom (place : Place) (source : List Char) :
    (locateFrom place source).map (fun mark => mark.place.index) = List.range' place.index source.length := by
  induction source generalizing place with
  | nil => rfl
  | cons c rest ih =>
    rw [locateFrom, List.map_cons, ih, Place.index_after, List.length_cons, List.range'_succ]

theorem map_index_locate (source : List Char) :
    (locate source).map (fun mark => mark.place.index) = List.range source.length := by
  rw [List.range_eq_range']
  exact map_index_locateFrom Place.first source

/-- A mark stands where the text before it leads. -/
theorem mem_locateFrom {place : Place} {source : List Char} {mark : Mark}
    (located : mark ∈ locateFrom place source) :
    ∃ front rest, source = front ++ mark.char :: rest ∧ mark.place = front.foldl Place.after place := by
  induction source generalizing place with
  | nil => cases located
  | cons c rest ih =>
    rcases List.mem_cons.mp located with rfl | later
    · exact ⟨[], rest, rfl, rfl⟩
    · obtain ⟨front, back, rfl, here⟩ := ih later
      exact ⟨c :: front, back, rfl, here⟩

theorem standsIn_of_mem_locate {source : List Char} {mark : Mark} (located : mark ∈ locate source) :
    mark.StandsIn source := by
  obtain ⟨front, rest, rfl, here⟩ := mem_locateFrom located
  rw [foldl_after_first] at here
  have index : mark.place.index = front.length := by rw [here]
  have behind : (front ++ mark.char :: rest).take mark.place.index = front := List.take_left' index.symm
  constructor
  · rw [index, List.length_append, List.length_cons]
    omega
  · rw [index, List.getElem?_append_right (Nat.le_refl _), Nat.sub_self, List.getElem?_cons_zero]
  · rw [behind, here]
  · rw [behind, here]

end Source

theorem Layout.stripFrom_sublist (layout : Layout) (marks : List Mark) :
    (layout.stripFrom marks).Sublist marks := by
  induction marks generalizing layout with
  | nil => exact .slnil
  | cons mark rest ih =>
    rw [stripFrom]
    split
    · exact (ih _).cons_cons mark
    · exact (ih _).cons mark

end Parley
