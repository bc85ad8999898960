import Parley.Failure

/-! The section counts of a text: how many commands each response of each branch has. Only closing
delimiters are counted, so the counts are exact before anything is built. -/

namespace Parley

/-- One row for each branch, and in it the number of commands of each response. -/
abbrev Counts := List (List Nat)

namespace Counts

def branches (counts : Counts) : Nat := counts.length

def lists? (counts : Counts) (branch : Nat) : Option Nat := counts[branch]?.map List.length

def commands? (counts : Counts) (branch list : Nat) : Option Nat :=
  counts[branch]?.bind fun row => row[list]?

end Counts

namespace Source

/-- The characters outside strings, without the quotes. -/
def outsideStrings (quoted : Bool) : List Char → List Char
  | [] => []
  | c :: rest =>
    if c = '"' then outsideStrings (!quoted) rest
    else if quoted then outsideStrings quoted rest
    else c :: outsideStrings quoted rest

/-- The pieces that `closer` ends, in order, and what follows the last of them. -/
def pieces (closer : Char) : List Char → List (List Char) × List Char
  | [] => ([], [])
  | c :: rest =>
    match pieces closer rest with
    | (closed, unclosed) =>
      if c = closer then ([] :: closed, unclosed)
      else
        match closed with
        | [] => ([], c :: unclosed)
        | piece :: more => ((c :: piece) :: more, unclosed)

/-- Every list has to lie in a branch that closes, and every command in a list that closes before its
branch does. -/
def count (text : List Char) : Except Failure Counts :=
  let (branches, trailing) := pieces '}' (outsideStrings false text)
  let lists := branches.map (pieces ')')
  if ')' ∈ trailing then
    .error ⟨.count .strayList, none⟩
  else if ';' ∈ trailing || lists.any (fun list => ';' ∈ list.2) then
    .error ⟨.count .strayCommand, none⟩
  else
    .ok (lists.map fun list => list.1.map (List.count ';'))

end Source

end Parley
