import Parley.Files.Disk
import Parley.Proofs.Failing
import Parley.Proofs.Files.Folder

namespace Parley

theorem Path.names_ne_nil {path : String} (relative : Path.isAbsolute path = false)
    (written : path.isEmpty = false) : Path.names path ≠ [] := by
  cases spelled : path.toList with
  | nil =>
    have empty : path = "" := String.toList_eq_nil_iff.mp spelled
    simp [empty] at written
  | cons c rest =>
    have noSlash : c ≠ '/' := by
      rintro rfl
      simp [isAbsolute, spelled] at relative
    rw [names, spelled, Text.split, if_neg noSlash]
    split <;> simp

namespace Disk

def HasFolder (disk : Disk) (place : List String) : Prop :=
  ∃ inside, disk.root.node? place = some (.folder inside)

def HasFile (disk : Disk) (place : List String) (content : ByteArray) : Prop :=
  disk.root.node? place = some (.file content)

theorem hasFolder_iff {disk : Disk} {place : List String} :
    disk.HasFolder place ↔ (disk.root.node? place).map Node.content? = some none := by
  unfold HasFolder
  cases disk.root.node? place with
  | none => simp
  | some node => cases node <;> simp [Node.content?]

theorem hasFile_iff {disk : Disk} {place : List String} {content : ByteArray} :
    disk.HasFile place content ↔ (disk.root.node? place).map Node.content? = some (some content) := by
  unfold HasFile
  cases disk.root.node? place with
  | none => simp
  | some node => cases node <;> simp [Node.content?]

/-- Nothing was lost between two disks, and only the file at one place may have come or changed. -/
structure Keeps (before after : Disk) (written : Option (List String)) : Prop where
  working : after.working = before.working
  folders : before.HasFolder place → after.HasFolder place
  files : written ≠ some place → (after.HasFile place content ↔ before.HasFile place content)

namespace Keeps

theorem refl (disk : Disk) (written : Option (List String)) : disk.Keeps disk written :=
  ⟨rfl, id, fun _ => Iff.rfl⟩

theorem trans {before between after : Disk} (first : before.Keeps between written)
    (second : between.Keeps after written) : before.Keeps after written where
  working := second.working.trans first.working
  folders := second.folders ∘ first.folders
  files apart := (second.files apart).trans (first.files apart)

end Keeps

def step (here : List String) (name : String) : List String :=
  if name = "." then here else if name = ".." then here.dropLast else here ++ [name]

theorem walk_cons {disk : Disk} {here place : List String} {name : String} {rest : List String} :
    disk.walk here (name :: rest) = .ok place ↔
      disk.HasFolder here ∧ disk.walk (step here name) rest = .ok place := by
  rw [walk]
  unfold step HasFolder
  cases disk.root.node? here with
  | none => simp
  | some node =>
    cases node with
    | file content => simp
    | folder inside =>
      by_cases here : name = "."
      · simp [here]
      · by_cases above : name = ".."
        · simp [above]
        · simp [here, above]

/-- Names lead where they say, whatever is on the disk, if they lead anywhere. -/
theorem walk_eq {disk : Disk} {here place names : List String}
    (found : disk.walk here names = .ok place) : place = names.foldl step here := by
  induction names generalizing here with
  | nil =>
    cases found
    rfl
  | cons name rest ih => exact ih (walk_cons.mp found).2

theorem HasFolder.dropLast {disk : Disk} {place : List String} (folder : disk.HasFolder place) :
    disk.HasFolder place.dropLast := by
  obtain ⟨inside, found⟩ := folder
  rcases Folder.node?_dropLast found with rfl | above
  · exact ⟨inside, found⟩
  · exact above

/-- A walk ends at a folder or in one. -/
theorem walk_parent {disk : Disk} {here place names : List String} (named : names ≠ [])
    (found : disk.walk here names = .ok place) :
    disk.HasFolder place ∨ (place ≠ [] ∧ disk.HasFolder place.dropLast) := by
  induction names generalizing here with
  | nil => exact absurd rfl named
  | cons name rest ih =>
    obtain ⟨folder, later⟩ := walk_cons.mp found
    cases rest with
    | cons second more => exact ih (List.cons_ne_nil _ _) later
    | nil =>
      cases later
      unfold step
      split
      · exact .inl folder
      · split
        · exact .inl folder.dropLast
        · exact .inr ⟨by simp, by simpa using folder⟩

theorem Keeps.walk {before after : Disk} (kept : before.Keeps after written)
    {here place names : List String} (found : before.walk here names = .ok place) :
    after.walk here names = .ok place := by
  induction names generalizing here with
  | nil => exact found
  | cons name rest ih =>
    obtain ⟨folder, later⟩ := walk_cons.mp found
    exact walk_cons.mpr ⟨kept.folders folder, ih later⟩

def start? (disk : Disk) (absolute : Bool) : Option (List String) :=
  if absolute then some [] else disk.working

def destination (disk : Disk) (path : String) : Option (List String) :=
  (disk.start? (Path.isAbsolute path)).map fun start => (Path.names path).foldl step start

theorem locate_ok_iff {disk : Disk} {absolute : Bool} {names place : List String} :
    disk.locate absolute names = .ok place ↔
      ∃ start, disk.start? absolute = some start ∧ disk.walk start names = .ok place := by
  unfold locate start?
  cases (if absolute then some [] else disk.working) with
  | none => simp
  | some start => simp

theorem destination_of_locate {disk : Disk} {path : String} {place : List String}
    (found : disk.locate (Path.isAbsolute path) (Path.names path) = .ok place) :
    disk.destination path = some place := by
  obtain ⟨start, begun, walked⟩ := locate_ok_iff.mp found
  rw [destination, begun, Option.map_some, walk_eq walked]

namespace Keeps

theorem start? {before after : Disk} (kept : before.Keeps after written) (absolute : Bool) :
    after.start? absolute = before.start? absolute := by
  unfold Disk.start?
  rw [kept.working]

theorem destination {before after : Disk} (kept : before.Keeps after written) (path : String) :
    after.destination path = before.destination path := by
  unfold Disk.destination
  rw [kept.start?]

theorem locate {before after : Disk} (kept : before.Keeps after written) {absolute : Bool}
    {names place : List String} (found : before.locate absolute names = .ok place) :
    after.locate absolute names = .ok place := by
  obtain ⟨start, begun, walked⟩ := locate_ok_iff.mp found
  exact locate_ok_iff.mpr ⟨start, (kept.start? absolute).trans begun, kept.walk walked⟩

end Keeps

theorem look_file_iff {disk : Disk} {path : String} {content : ByteArray} :
    disk.look path = .ok (.file content) ↔
      path.isEmpty = false ∧ Path.demandsFolder path = false ∧
        ∃ place, disk.locate (Path.isAbsolute path) (Path.names path) = .ok place ∧
          disk.HasFile place content := by
  unfold look HasFile
  cases path.isEmpty with
  | true => simp
  | false =>
    cases disk.locate (Path.isAbsolute path) (Path.names path) with
    | error fault => simp
    | ok place =>
      cases found : disk.root.node? place with
      | none => simp [found]
      | some node =>
        cases node with
        | folder inside => simp [found]
        | file other =>
          cases Path.demandsFolder path <;> simp [found]

theorem read_ok_iff {disk : Disk} {path text : String} :
    disk.read path = .ok text ↔
      ∃ content, disk.look path = .ok (.file content) ∧ String.fromUTF8? content = some text := by
  unfold read
  cases disk.look path with
  | error fault => simp
  | ok node =>
    cases node with
    | folder inside => simp
    | file content =>
      cases decoded : String.fromUTF8? content <;> simp [decoded]

/-- A file stays what it is as long as another is written. -/
theorem Keeps.look {before after : Disk} (kept : before.Keeps after written) {path : String}
    (apart : written ≠ before.destination path) (found : before.look path = .ok (.file content)) :
    after.look path = .ok (.file content) := by
  obtain ⟨named, plain, place, led, file⟩ := look_file_iff.mp found
  rw [destination_of_locate led] at apart
  exact look_file_iff.mpr ⟨named, plain, place, kept.locate led, (kept.files apart).mpr file⟩

theorem exists?_of_read {disk : Disk} {path text : String} (read : disk.read path = .ok text) :
    disk.exists? path = true := by
  obtain ⟨content, found, _⟩ := read_ok_iff.mp read
  rw [exists?, found]
  rfl

theorem Keeps.read {before after : Disk} (kept : before.Keeps after none) {path text : String}
    (read : before.read path = .ok text) : after.read path = .ok text := by
  obtain ⟨content, found, decoded⟩ := read_ok_iff.mp read
  obtain ⟨_, _, place, led, _⟩ := look_file_iff.mp found
  have apart : none ≠ before.destination path := by
    rw [destination_of_locate led]
    exact (Option.some_ne_none place).symm
  exact read_ok_iff.mpr ⟨content, kept.look apart found, decoded⟩

def store (disk : Disk) (node : Node) (place : List String) : Disk :=
  { disk with root := disk.root.store node place }

/-- Storing a file where no folder is, or an empty folder where nothing is, is seen there only. -/
theorem keeps_store {disk : Disk} {place : List String} {node : Node}
    (named : place ≠ []) (parent : disk.HasFolder place.dropLast) (free : ¬disk.HasFolder place)
    (bare : ∀ rest, rest ≠ [] → node.at? rest = none)
    (told : written = some place ∨ (disk.root.node? place = none ∧ node.content? = none)) :
    disk.Keeps (disk.store node place) written where
  working := rfl
  folders {other} folder := by
    have apart : other ≠ place := by
      rintro rfl
      exact free folder
    have same := Folder.content?_store (fun inside found => free ⟨inside, found⟩) bare apart
    exact hasFolder_iff.mpr (same.trans (hasFolder_iff.mp folder))
  files {other content} apart := by
    by_cases here : other = place
    · subst here
      rcases told with named | ⟨absent, folder⟩
      · exact absurd named apart
      · obtain ⟨inside, above⟩ := parent
        have stored : (disk.store node other).root.node? other = some node :=
          Folder.node?_store_self node named above
        constructor
        · intro file
          rw [hasFile_iff, stored, Option.map_some, folder] at file
          cases file
        · intro file
          rw [HasFile, absent] at file
          cases file
    · have same := Folder.content?_store (fun inside found => free ⟨inside, found⟩) bare here
      rw [hasFile_iff, hasFile_iff]
      exact ⟨same.symm.trans, same.trans⟩

theorem makeFolder_keeps {disk made : Disk} {absolute : Bool} {names : List String} (named : names ≠ [])
    (created : disk.makeFolder absolute names = .ok made) (written : Option (List String)) :
    disk.Keeps made written := by
  obtain ⟨place, located, created⟩ := bind_ok created
  cases found : disk.root.node? place with
  | some node =>
    rw [found] at created
    cases created
  | none =>
    rw [found] at created
    have stored : disk.store (.folder .empty) place = made := Except.ok.inj created
    have free : ¬disk.HasFolder place := by
      rintro ⟨inside, here⟩
      exact absurd (found.symm.trans here) (by simp)
    have bare (rest : List String) (deeper : rest ≠ []) : (Node.folder .empty).at? rest = none := by
      cases rest with
      | nil => exact absurd rfl deeper
      | cons name more => simp [Node.at?, Folder.node?_cons, Folder.find?]
    obtain ⟨start, -, walked⟩ := locate_ok_iff.mp located
    rcases walk_parent named walked with folder | ⟨deep, parent⟩
    · exact absurd folder free
    · rw [← stored]
      exact keeps_store deep parent free bare (.inr ⟨found, rfl⟩)

theorem makeAbsentFolder_keeps {disk made : Disk} {absolute : Bool} {names : List String}
    (named : names ≠ []) (created : disk.makeAbsentFolder absolute names = .ok made)
    (written : Option (List String)) : disk.Keeps made written := by
  unfold makeAbsentFolder at created
  split at created
  · split at created
    · cases created
      exact .refl disk written
    · cases created
  · exact makeFolder_keeps named created written

/-- Creating folders touches no file, also where it stops half way. -/
theorem makeFolders_keeps (absolute : Bool) (names : List String) (disk : Disk)
    (written : Option (List String)) : disk.Keeps (makeFolders absolute names disk).1 written := by
  -- The induction is on the folders above, which are created first and may already have failed.
  induction names with
  | nil => exact .refl disk written
  | cons name above ih =>
    have named : (name :: above).reverse ≠ [] := by simp
    simp only [makeFolders]
    split
    · rename_i created
      exact makeAbsentFolder_keeps named created written
    · split
      · rename_i stopped
        rw [stopped] at ih
        exact ih
      · rename_i reached
        rw [reached] at ih
        split
        · rename_i created
          exact ih.trans (makeAbsentFolder_keeps named created written)
        · exact ih
    · exact .refl disk written

theorem write_ok_iff {disk after : Disk} {path : String} {content : ByteArray} :
    disk.write path content = .ok after ↔
      path.isEmpty = false ∧ Path.demandsFolder path = false ∧
        ∃ place, disk.locate (Path.isAbsolute path) (Path.names path) = .ok place ∧
          ¬disk.HasFolder place ∧ disk.store (.file content) place = after := by
  unfold write HasFolder store
  cases path.isEmpty with
  | true => simp
  | false =>
    cases disk.locate (Path.isAbsolute path) (Path.names path) with
    | error fault => simp
    | ok place =>
      cases found : disk.root.node? place with
      | none =>
        cases Path.demandsFolder path <;> simp [found]
      | some node =>
        cases node with
        | folder inside => simp [found]
        | file other =>
          cases Path.demandsFolder path <;> simp [found]

/-- A path that leads to no folder has a last name, and the folder that name stands in is there. -/
theorem parent_of_locate {disk : Disk} {path : String} {place : List String}
    (written : path.isEmpty = false)
    (located : disk.locate (Path.isAbsolute path) (Path.names path) = .ok place)
    (free : ¬disk.HasFolder place) : place ≠ [] ∧ disk.HasFolder place.dropLast := by
  obtain ⟨start, begun, walked⟩ := locate_ok_iff.mp located
  have named : Path.names path ≠ [] := by
    intro nameless
    cases absolute : Path.isAbsolute path with
    | false => exact Path.names_ne_nil absolute written nameless
    | true =>
      rw [absolute] at begun
      cases begun
      rw [nameless] at walked
      cases walked
      exact free ⟨disk.root, rfl⟩
  rcases walk_parent named walked with folder | parent
  · exact absurd folder free
  · exact parent

theorem write_keeps {disk after : Disk} {path : String} {content : ByteArray}
    (stored : disk.write path content = .ok after) :
    disk.Keeps after (disk.destination path) ∧ after.look path = .ok (.file content) := by
  obtain ⟨written, plain, place, located, free, rfl⟩ := write_ok_iff.mp stored
  obtain ⟨deep, parent⟩ := parent_of_locate written located free
  have bare (rest : List String) (deeper : rest ≠ []) : (Node.file content).at? rest = none := by
    cases rest with
    | nil => exact absurd rfl deeper
    | cons name more => rfl
  have kept : disk.Keeps (disk.store (.file content) place) (disk.destination path) :=
    keeps_store deep parent free bare (.inl (destination_of_locate located))
  refine ⟨kept, look_file_iff.mpr ⟨written, plain, place, kept.locate located, ?_⟩⟩
  obtain ⟨inside, above⟩ := parent
  exact Folder.node?_store_self _ deep above

/-- Where one file can be written another one can. -/
theorem write_ok_other {disk after : Disk} {path : String} {content : ByteArray}
    (written : disk.write path content = .ok after) (other : ByteArray) :
    ∃ changed, disk.write path other = .ok changed := by
  obtain ⟨named, file, place, found, free, -⟩ := write_ok_iff.mp written
  exact ⟨_, write_ok_iff.mpr ⟨named, file, place, found, free, rfl⟩⟩

theorem save_ok_other {disk : Disk} {path : String} {content : ByteArray}
    (saved : (disk.save path content).2 = .ok ()) (other : ByteArray) : (disk.save path other).2 = .ok () := by
  unfold save at saved ⊢
  split at saved
  · cases saved
  · split at saved
    · rename_i written
      obtain ⟨changed, stored⟩ := write_ok_other written other
      rw [stored]
    · cases saved

/-- A save either writes the file, after the folders that lead to it, or writes no file at all. -/
theorem save_cases (disk : Disk) (path : String) (content : ByteArray) :
    (∃ after, disk.save path content = (after, .ok ()) ∧
      disk.Keeps after (disk.destination path) ∧ after.look path = .ok (.file content)) ∨
    (∃ after fault, disk.save path content = (after, .error fault) ∧ disk.Keeps after none) := by
  have made := makeFolders_keeps (Path.isAbsolute path) (Path.parentNames path).reverse disk
  unfold save
  split
  · rename_i below fault stopped
    rw [stopped] at made
    exact .inr ⟨below, fault, rfl, made none⟩
  · rename_i below reached
    rw [reached] at made
    cases stored : below.write path content with
    | error fault => exact .inr ⟨below, fault, rfl, made none⟩
    | ok after =>
      obtain ⟨kept, found⟩ := write_keeps stored
      rw [(made none).destination] at kept
      exact .inl ⟨after, rfl, (made _).trans kept, found⟩

end Disk

end Parley
