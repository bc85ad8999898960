namespace Parley

/-- The entries of a folder, in ascending order of their names. -/
inductive Folder
  | empty
  | file (name : String) (content : ByteArray) (rest : Folder)
  | folder (name : String) (inside : Folder) (rest : Folder)

inductive Node
  | file (content : ByteArray)
  | folder (inside : Folder)

namespace Node

def isFolder : Node → Bool
  | file _ => false
  | folder _ => true

def entry (name : String) (rest : Folder) : Node → Folder
  | file content => .file name content rest
  | folder inside => .folder name inside rest

end Node

namespace Folder

def find? (wanted : String) : Folder → Option Node
  | empty => none
  | file name content rest => if name = wanted then some (.file content) else rest.find? wanted
  | folder name inside rest => if name = wanted then some (.folder inside) else rest.find? wanted

/-- Enters a node at its place in the order. An entry of the same name is replaced. -/
def put (wanted : String) (node : Node) : Folder → Folder
  | empty => node.entry wanted empty
  | file name content rest =>
    if name < wanted then file name content (rest.put wanted node)
    else if name = wanted then node.entry wanted rest
    else node.entry wanted (file name content rest)
  | folder name inside rest =>
    if name < wanted then folder name inside (rest.put wanted node)
    else if name = wanted then node.entry wanted rest
    else node.entry wanted (folder name inside rest)

def node? (start : Folder) : List String → Option Node
  | [] => some (.folder start)
  | [name] => start.find? name
  | name :: rest =>
    match start.find? name with
    | some (.folder inside) => inside.node? rest
    | _ => none

/-- Enters a node where names lead. Nothing changes if a folder on the way is missing. -/
def store (start : Folder) (node : Node) : List String → Folder
  | [] => start
  | [name] => start.put name node
  | name :: rest =>
    match start.find? name with
    | some (.folder inside) => start.put name (.folder (inside.store node rest))
    | _ => start

/-- Every file below a folder with the path that leads to it, in the order of a walk that enters each
folder where its name stands. -/
def files (above : String → String) : Folder → List (String × ByteArray)
  | empty => []
  | file name content rest => (above name, content) :: rest.files above
  | folder name inside rest =>
    inside.files (fun below => above name ++ "/" ++ below) ++ rest.files above

end Folder

end Parley
