namespace Parley

/-- `index` counts characters from 0; `line` and `column` count from 1. -/
structure Place where
  index : Nat
  line : Nat
  column : Nat
  deriving DecidableEq, Repr

/-- A character of the source and its place. -/
structure Mark where
  char : Char
  place : Place
  deriving DecidableEq, Repr

namespace Place

def first : Place := ⟨0, 1, 1⟩

/-- The place that follows `c`. Only a line feed ends a line. -/
def after (place : Place) (c : Char) : Place :=
  if c = '\n' then ⟨place.index + 1, place.line + 1, 1⟩
  else ⟨place.index + 1, place.line, place.column + 1⟩

end Place

namespace Source

def locateFrom (place : Place) : List Char → List Mark
  | [] => []
  | c :: rest => ⟨c, place⟩ :: locateFrom (place.after c) rest

def locate (text : List Char) : List Mark := locateFrom Place.first text

def text (marks : List Mark) : List Char := marks.map Mark.char

@[simp]
theorem text_locateFrom (place : Place) (source : List Char) :
    text (locateFrom place source) = source := by
  induction source generalizing place with
  | nil => rfl
  | cons c rest ih => simpa [text, locateFrom] using ih (place.after c)

theorem text_locate (source : List Char) : text (locate source) = source :=
  text_locateFrom Place.first source

end Source

end Parley
