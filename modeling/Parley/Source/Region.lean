namespace Parley

inductive Region
  | title
  | branch
  | commands
  deriving DecidableEq, Repr

namespace Region

def opener : Region → Char
  | title => '['
  | branch => '{'
  | commands => '('

def closer : Region → Char
  | title => ']'
  | branch => '}'
  | commands => ')'

def ofOpener? : Char → Option Region
  | '[' => some title
  | '{' => some branch
  | '(' => some commands
  | _ => none

def ofCloser? : Char → Option Region
  | ']' => some title
  | '}' => some branch
  | ')' => some commands
  | _ => none

@[simp]
theorem ofOpener?_opener (region : Region) : ofOpener? region.opener = some region := by
  cases region <;> rfl

@[simp]
theorem ofCloser?_closer (region : Region) : ofCloser? region.closer = some region := by
  cases region <;> rfl

end Region

/-- Characters that never stand for themselves outside a string. -/
def isDelimiter (c : Char) : Bool :=
  c = '"' || c = ';' || (Region.ofOpener? c).isSome || (Region.ofCloser? c).isSome

end Parley
