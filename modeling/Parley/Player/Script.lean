import Parley.Files.Disk
import Parley.Play.Session

namespace Parley

/-- A dialogue source and the absolute path it was read from. -/
structure Script where
  path : String
  text : String
  deriving DecidableEq, Repr

namespace Script

def fileExtension : String := "qdl"

/-- The absolute path of something that exists. Relative paths start at the working folder. -/
def resolve (disk : Disk) (source : String) : Except Failure String := do
  let path ←
    if Path.isAbsolute source then pure source
    else
      match disk.working with
      | none => throw ⟨.command (.sourceUnresolved .missing), none⟩
      | some names => pure (Path.join (Path.ofNames names) source)
  if disk.exists? path then return path
  throw ⟨.command (.sourceMissing path), none⟩

def load (disk : Disk) (source : String) : Except Failure Script := do
  let path ← resolve disk source
  match disk.look path with
  | .ok (.file _) =>
    match disk.read path with
    | .ok text => return ⟨path, text⟩
    | .error fault => throw ⟨.command (.sourceUnreadable fault), none⟩
  | _ => throw ⟨.command (.sourceNotFile path), none⟩

/-- The last name of a path decides whether it belongs to a dialogue source. -/
def isScript (path : String) : Bool :=
  match (Path.names path).getLast? with
  | some name => Path.extension? name = some fileExtension
  | none => false

/-- Every source below a folder, in path order. A root that is a file is taken whatever its name. -/
def collect (disk : Disk) (root : String) : Except Failure (List (String × ByteArray)) :=
  match disk.look root with
  | .ok (.file content) => .ok [(root, content)]
  | .ok (.folder inside) =>
    match (inside.files (Path.join root)).filter fun file => isScript file.1 with
    | [] => .error ⟨.command (.noSources root), none⟩
    | found => .ok found
  | .error fault => .error ⟨.command (.sourceUnscanned root fault), none⟩

def openSession (disk : Disk) (options : Options) (path : String) : Except Failure Session :=
  match disk.read path with
  | .ok text => Session.ofSource options text
  | .error fault => .error ⟨.command (.sourceUnopened path fault), none⟩

end Script

end Parley
