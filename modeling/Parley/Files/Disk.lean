import Parley.Failure
import Parley.Files.Folder
import Parley.Files.Path

namespace Parley

/-- The working folder is missing when it was removed while the program stayed in it. -/
structure Disk where
  root : Folder
  working : Option (List String)

namespace Disk

/-- Walks names from a place that exists. Only the last name may lead to nothing. -/
def walk (disk : Disk) (here : List String) : List String → Except FileFault (List String)
  | [] => .ok here
  | name :: rest =>
    match disk.root.node? here with
    | none => .error .missing
    | some (.file _) => .error .notFolder
    | some (.folder _) =>
      if name = "." then disk.walk here rest
      else if name = ".." then disk.walk here.dropLast rest
      else disk.walk (here ++ [name]) rest

/-- The place that names lead to, from the root or from the working folder. -/
def locate (disk : Disk) (absolute : Bool) (names : List String) :
    Except FileFault (List String) :=
  match if absolute then some [] else disk.working with
  | none => .error .missing
  | some start => disk.walk start names

def look (disk : Disk) (path : String) : Except FileFault Node := do
  if path.isEmpty then throw .missing
  let place ← disk.locate (Path.isAbsolute path) (Path.names path)
  match disk.root.node? place with
  | none => throw .missing
  | some (.file content) =>
    if Path.demandsFolder path then throw .notFolder else return .file content
  | some (.folder inside) => return .folder inside

def exists? (disk : Disk) (path : String) : Bool := (disk.look path).isOk

def read (disk : Disk) (path : String) : Except FileFault String := do
  match ← disk.look path with
  | .folder _ => throw .isFolder
  | .file content =>
    match String.fromUTF8? content with
    | some text => return text
    | none => throw .notText

def makeFolder (disk : Disk) (absolute : Bool) (names : List String) : Except FileFault Disk := do
  let place ← disk.locate absolute names
  match disk.root.node? place with
  | some _ => throw .taken
  | none => return { disk with root := disk.root.store (.folder .empty) place }

def isFolderAt (disk : Disk) (absolute : Bool) (names : List String) : Bool :=
  match disk.locate absolute names with
  | .ok place => ((disk.root.node? place).map Node.isFolder).getD false
  | .error _ => false

def makeAbsentFolder (disk : Disk) (absolute : Bool) (names : List String) :
    Except FileFault Disk :=
  match disk.makeFolder absolute names with
  | .error .taken => if disk.isFolderAt absolute names then .ok disk else .error .taken
  | made => made

/-- Creates a folder and those missing above it; `names` leads to it from behind. What was created
before a fault stays. -/
def makeFolders (absolute : Bool) : List String → Disk → Disk × Except FileFault Unit
  | [], disk => (disk, .ok ())
  | name :: above, disk =>
    let names := (name :: above).reverse
    match disk.makeAbsentFolder absolute names with
    | .ok made => (made, .ok ())
    | .error .missing =>
      match makeFolders absolute above disk with
      | (below, .error fault) => (below, .error fault)
      | (below, .ok ()) =>
        match below.makeAbsentFolder absolute names with
        | .ok made => (made, .ok ())
        | .error fault => (below, .error fault)
    | .error fault => (disk, .error fault)

def write (disk : Disk) (path : String) (content : ByteArray) : Except FileFault Disk := do
  if path.isEmpty then throw .missing
  let place ← disk.locate (Path.isAbsolute path) (Path.names path)
  match disk.root.node? place with
  | some (.folder _) => throw .isFolder
  | some (.file _) | none =>
    if Path.demandsFolder path then throw .isFolder
    return { disk with root := disk.root.store (.file content) place }

/-- Writes a file, after creating the folders that lead to it. -/
def save (disk : Disk) (path : String) (content : ByteArray) : Disk × Except FileFault Unit :=
  match makeFolders (Path.isAbsolute path) (Path.parentNames path).reverse disk with
  | (made, .error fault) => (made, .error fault)
  | (made, .ok ()) =>
    match made.write path content with
    | .ok written => (written, .ok ())
    | .error fault => (made, .error fault)

end Disk

end Parley
