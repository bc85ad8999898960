import Parley.Text.Split

/-! Paths as text. A path is kept the way it was written, because that is how it is shown; what it leads
to is decided name by name. -/

namespace Parley.Path

def isAbsolute (path : String) : Bool := path.toList.head? = some '/'

/-- A path that ends in a slash only leads to a folder. -/
def demandsFolder (path : String) : Bool := path.toList.getLast? = some '/'

/-- The names along a path. Slashes only separate, however many there are. -/
def names (path : String) : List String :=
  ((Text.split '/' path.toList).filter (· ≠ [])).map String.ofList

/-- An absolute path stands for itself wherever it is looked up. -/
def join (folder path : String) : String :=
  if isAbsolute path then path
  else if folder.isEmpty || demandsFolder folder then folder ++ path
  else folder ++ "/" ++ path

def ofNames (names : List String) : String :=
  if names.isEmpty then "/" else String.join (names.map ("/" ++ ·))

/-- The names of the folder that a path stands in. Dots in the middle of a path lead nowhere and are
passed over; one in front of it is kept. -/
def parentNames (path : String) : List String :=
  let names := names path
  let kept :=
    if isAbsolute path then names.filter (· ≠ ".")
    else names.take 1 ++ (names.drop 1).filter (· ≠ ".")
  kept.dropLast

/-- What follows the last dot of a name, unless the dot is the first character. -/
def extension? (name : String) : Option String :=
  let after := name.toList.reverse.takeWhile (· ≠ '.')
  if after.length + 1 < name.length then some (String.ofList after.reverse) else none

end Parley.Path
