import Parley.Text.Split

namespace Parley.Text

/-- Cuts a text to a width. A text that does not fit ends in an ellipsis. -/
def truncate (width : Nat) (text : List Char) : List Char :=
  if text.length ≤ width then text
  else if width = 0 then []
  else text.take (width - 1) ++ ['…']

structure Wrapping where
  full : List (List Char)
  row : List Char
  deriving DecidableEq, Repr

namespace Wrapping

def breakRow (wrapping : Wrapping) : Wrapping := ⟨wrapping.full ++ [wrapping.row], []⟩

/-- A word wider than the row goes on in the next one. -/
def pushChar (width : Nat) (wrapping : Wrapping) (c : Char) : Wrapping :=
  let wrapping := if wrapping.row.length = width then wrapping.breakRow else wrapping
  { wrapping with row := wrapping.row ++ [c] }

/-- A word that does not fit behind the others starts a row. The space before a word is only written
where the word stays in the row. -/
def pushWord (width : Nat) (wrapping : Wrapping) (word : List Char) : Wrapping :=
  let wrapping :=
    if wrapping.row ≠ [] && width < wrapping.row.length + 1 + word.length then wrapping.breakRow
    else wrapping
  let wrapping :=
    if wrapping.row = [] then wrapping else { wrapping with row := wrapping.row ++ [' '] }
  word.foldl (pushChar width) wrapping

def rows (wrapping : Wrapping) : List (List Char) := wrapping.full ++ [wrapping.row]

end Wrapping

/-- Breaks a text into rows, between words where it can. Two spaces in a row have an empty word between
them. -/
def wrap (width : Nat) (text : List Char) : List (List Char) :=
  if width = 0 then [[]]
  else ((split ' ' text).foldl (Wrapping.pushWord width) ⟨[], []⟩).rows

end Parley.Text
