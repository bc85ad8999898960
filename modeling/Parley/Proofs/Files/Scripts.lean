import Parley.Player.Script
import Parley.Proofs.Files.Entries

namespace Parley

namespace Path

/-- What does not end before the last place of a text ends at a dot. -/
theorem exists_dot {text : List Char} (short : (text.takeWhile (· ≠ '.')).length + 1 < text.length) :
    ∃ rest, rest ≠ [] ∧ text = text.takeWhile (· ≠ '.') ++ '.' :: rest := by
  induction text with
  | nil => simp at short
  | cons c rest ih =>
    by_cases dot : c = '.'
    · subst dot
      refine ⟨rest, ?_, by simp⟩
      rintro rfl
      simp at short
    · have kept : (c :: rest).takeWhile (· ≠ '.') = c :: rest.takeWhile (· ≠ '.') := by simp [dot]
      rw [kept] at short ⊢
      obtain ⟨more, filled, spelled⟩ := ih (Nat.lt_of_succ_lt_succ short)
      refine ⟨more, filled, ?_⟩
      rw [List.cons_append, ← spelled]

/-- An extension stands behind the last dot of a name, and something stands in front of that. -/
theorem extension?_eq_some_iff {name wanted : String} :
    extension? name = some wanted ↔
      '.' ∉ wanted.toList ∧ ∃ stem, stem ≠ "" ∧ name = stem ++ "." ++ wanted := by
  constructor
  · intro found
    unfold extension? at found
    dsimp only at found
    split at found
    · rename_i short
      obtain rfl := Option.some.inj found
      have room : (name.toList.reverse.takeWhile (· ≠ '.')).length + 1 < name.toList.reverse.length := by
        rw [List.length_reverse, String.length_toList]
        exact short
      obtain ⟨rest, filled, spelled⟩ := exists_dot room
      have undotted : '.' ∉ name.toList.reverse.takeWhile (· ≠ '.') := fun member => by
        simpa using List.all_eq_true.mp List.all_takeWhile _ member
      have whole := congrArg List.reverse spelled
      rw [List.reverse_reverse] at whole
      refine ⟨by simpa using undotted, String.ofList rest.reverse, by simpa using filled, ?_⟩
      apply String.toList_injective
      simpa using whole
    · cases found
  · rintro ⟨undotted, stem, filled, rfl⟩
    have spelled : (stem ++ "." ++ wanted).toList.reverse = wanted.toList.reverse ++ '.' :: stem.toList.reverse := by
      simp
    have whole : ∀ c ∈ wanted.toList.reverse, decide (c ≠ '.') = true := fun c member =>
      decide_eq_true fun dot => undotted (dot ▸ List.mem_reverse.mp member)
    have behind : (stem ++ "." ++ wanted).toList.reverse.takeWhile (· ≠ '.') = wanted.toList.reverse := by
      rw [spelled, List.takeWhile_append_of_pos whole, List.takeWhile_cons]
      simp
    have length : 0 < stem.length := by
      rw [← String.length_toList]
      exact List.length_pos_iff.mpr fun none => filled (String.toList_eq_nil_iff.mp none)
    unfold extension?
    dsimp only
    rw [behind, List.reverse_reverse, String.ofList_toList, if_pos]
    simp only [String.length_append, List.length_reverse, String.length_toList]
    rw [show ".".length = 1 from rfl]
    omega

theorem join_place (root : String) {place : List String} (filled : place ≠ [])
    (named : ∀ name ∈ place, IsName name) :
    join root ("/".intercalate place) = front root ++ "/".intercalate place := by
  cases place with
  | nil => exact absurd rfl filled
  | cons name rest => exact join_of_relative root ((named name List.mem_cons_self).relative_intercalate rest)

theorem names_join_place (root : String) {place : List String} (filled : place ≠ [])
    (named : ∀ name ∈ place, IsName name) : names (join root ("/".intercalate place)) = names root ++ place := by
  rw [join_place root filled named, names_front, names_intercalate named]

end Path

namespace Script

/-- Whether the last of the names that lead to a file says that it holds a dialogue. -/
def isNamed (place : List String) : Bool :=
  match place.getLast? with
  | some name => Path.extension? name = some fileExtension
  | none => false

theorem isNamed_iff {place : List String} :
    isNamed place = true ↔ ∃ above stem, stem ≠ "" ∧ place = above ++ [stem ++ ".qdl"] := by
  have undotted : '.' ∉ fileExtension.toList := by decide
  have spelled (stem : String) : stem ++ "." ++ fileExtension = stem ++ ".qdl" := by
    rw [String.append_assoc]
    rfl
  rw [isNamed]
  constructor
  · intro named
    split at named
    · rename_i name last
      obtain ⟨_, stem, filled, rfl⟩ := Path.extension?_eq_some_iff.mp (of_decide_eq_true named)
      obtain ⟨above, rfl⟩ := List.getLast?_eq_some_iff.mp last
      exact ⟨above, stem, filled, by rw [spelled]⟩
    · cases named
  · rintro ⟨above, stem, filled, rfl⟩
    rw [List.getLast?_concat]
    exact decide_eq_true (Path.extension?_eq_some_iff.mpr ⟨undotted, stem, filled, (spelled stem).symm⟩)

theorem isScript_join (root : String) {place : List String} (filled : place ≠ [])
    (named : ∀ name ∈ place, Path.IsName name) :
    isScript (Path.join root ("/".intercalate place)) = isNamed place := by
  have last : (Path.names root ++ place).getLast? = place.getLast? := by
    rw [List.getLast?_append, List.getLast?_eq_some_getLast filled]
    rfl
  rw [isScript, Path.names_join_place root filled named, last]
  rfl

end Script

namespace Folder

def scripts (start : Folder) : List (List String × ByteArray) :=
  start.entries.filter fun entry => Script.isNamed entry.1

theorem mem_scripts_iff {start : Folder} (ordered : start.Ordered) (place : List String) (content : ByteArray) :
    (place, content) ∈ start.scripts ↔
      start.node? place = some (.file content) ∧ Script.isNamed place = true := by
  rw [scripts, List.mem_filter, mem_entries_iff ordered]

theorem pairwise_scripts {start : Folder} (ordered : start.Ordered) :
    start.scripts.Pairwise fun script other => script.1 < other.1 := (pairwise_entries ordered).filter _

end Folder

namespace Script

theorem collect_eq {disk : Disk} {root : String} {inside : Folder} (ordered : inside.Ordered)
    (found : disk.look root = .ok (.folder inside)) :
    collect disk root =
      if inside.scripts.isEmpty then .error ⟨.command (.noSources root), none⟩
      else .ok (inside.scripts.map fun script => (Path.join root ("/".intercalate script.1), script.2)) := by
  have fronted (name : String) (named : Path.IsName name) :
      Path.join root name = Path.front root ++ name := Path.join_of_relative root named.relative
  have spelled : inside.files (Path.join root) =
      inside.entries.map fun entry => (Path.join root ("/".intercalate entry.1), entry.2) := by
    rw [Folder.files_eq ordered fronted]
    refine List.map_congr_left fun entry listed => ?_
    rw [Path.join_place root (Folder.ne_nil_of_entries listed) (Folder.isName_of_entries ordered listed)]
  have kept : inside.entries.filter ((fun file => isScript file.1) ∘ fun entry =>
      (Path.join root ("/".intercalate entry.1), entry.2)) = inside.scripts :=
    List.filter_congr fun entry listed =>
      isScript_join root (Folder.ne_nil_of_entries listed) (Folder.isName_of_entries ordered listed)
  have listed : (inside.files (Path.join root)).filter (fun file => isScript file.1) =
      inside.scripts.map fun script => (Path.join root ("/".intercalate script.1), script.2) := by
    rw [spelled, List.filter_map, kept]
  rw [collect, found]
  simp only [listed]
  cases inside.scripts with
  | nil => rfl
  | cons script rest => rfl

theorem collect_folder {disk : Disk} {root : String} {inside : Folder} (ordered : inside.Ordered)
    (found : disk.look root = .ok (.folder inside)) (inhabited : inside.scripts ≠ []) :
    collect disk root = .ok (inside.scripts.map fun script =>
      (Path.join root ("/".intercalate script.1), script.2)) := by
  rw [collect_eq ordered found, if_neg]
  simpa using inhabited

/-- A scan finds exactly the files below a folder whose name has the extension behind something else; each of them
once, in the order of the names along the paths; and it fails if there are none. A file is taken for itself, whatever
its name. -/
theorem collect_exact (disk : Disk) (root : String) :
    (∀ content, disk.look root = .ok (.file content) → collect disk root = .ok [(root, content)]) ∧
    ∀ inside, disk.look root = .ok (.folder inside) → inside.Ordered →
      ∃ scripts : List (List String × ByteArray),
        (∀ place content, (place, content) ∈ scripts ↔ inside.node? place = some (.file content) ∧
          ∃ above stem, stem ≠ "" ∧ place = above ++ [stem ++ ".qdl"]) ∧
        scripts.Pairwise (fun script other => script.1 < other.1) ∧
        let files := scripts.map fun script => (Path.join root ("/".intercalate script.1), script.2)
        (∀ script ∈ scripts,
          Path.names (Path.join root ("/".intercalate script.1)) = Path.names root ++ script.1) ∧
        files.Pairwise (fun file other => Path.names file.1 < Path.names other.1) ∧
        (scripts ≠ [] → collect disk root = .ok files) ∧
        (scripts = [] → collect disk root = .error ⟨.command (.noSources root), none⟩) ∧
        Failure.code ⟨.command (.noSources root), none⟩ = "CLI_SOURCE_EMPTY" := by
  refine ⟨fun content found => by rw [collect, found], fun inside found ordered => ?_⟩
  have exact (place : List String) (content : ByteArray) : (place, content) ∈ inside.scripts ↔
      inside.node? place = some (.file content) ∧ ∃ above stem, stem ≠ "" ∧ place = above ++ [stem ++ ".qdl"] := by
    rw [Folder.mem_scripts_iff ordered, isNamed_iff]
  have ascending := Folder.pairwise_scripts ordered
  have spelled : ∀ script ∈ inside.scripts,
      Path.names (Path.join root ("/".intercalate script.1)) = Path.names root ++ script.1 := by
    intro script member
    have listed : script ∈ inside.entries := (List.mem_filter.mp member).1
    exact Path.names_join_place root (Folder.ne_nil_of_entries listed) (Folder.isName_of_entries ordered listed)
  have paths : (inside.scripts.map fun script => (Path.join root ("/".intercalate script.1), script.2)).Pairwise
      fun file other => Path.names file.1 < Path.names other.1 := by
    refine List.pairwise_map.mpr (ascending.imp_of_mem fun {script other} member behind before => ?_)
    rw [spelled script member, spelled other behind]
    exact List.append_left_lt before
  refine ⟨inside.scripts, exact, ascending, spelled, paths, collect_folder ordered found, fun none => ?_, rfl⟩
  rw [collect_eq ordered found, none]
  rfl

/-- A folder stands before a file whose name begins with its own, a folder may be named like a source, and a name
that is nothing but the extension has none. -/
def shelf : Folder :=
  .folder "a" (.file "z.qdl" "Z".toUTF8 .empty)
    (.file "a.qdl" "A".toUTF8
      (.folder "b.qdl" (.file ".qdl" "".toUTF8 (.file "c.d.qdl" "C".toUTF8 (.file "e.QDL" "E".toUTF8 .empty)))
        (.file "note" "N".toUTF8 .empty)))

example : shelf.scripts.map Prod.fst = [["a", "z.qdl"], ["a.qdl"], ["b.qdl", "c.d.qdl"]] := by decide +kernel

def shelfDisk : Disk := ⟨.folder "shelf" shelf .empty, some []⟩

theorem collect_exact_on_shelf :
    shelfDisk.look "/shelf/note" = .ok (.file "N".toUTF8) ∧
    collect shelfDisk "/shelf/note" = .ok [("/shelf/note", "N".toUTF8)] ∧
    shelfDisk.look "/shelf" = .ok (.folder shelf) ∧ shelf.Ordered ∧
    ∃ scripts : List (List String × ByteArray),
      (∀ place content, (place, content) ∈ scripts ↔ shelf.node? place = some (.file content) ∧
        ∃ above stem, stem ≠ "" ∧ place = above ++ [stem ++ ".qdl"]) ∧
      scripts.Pairwise (fun script other => script.1 < other.1) ∧
      let files := scripts.map fun script => (Path.join "/shelf" ("/".intercalate script.1), script.2)
      (∀ script ∈ scripts,
        Path.names (Path.join "/shelf" ("/".intercalate script.1)) = Path.names "/shelf" ++ script.1) ∧
      files.Pairwise (fun file other => Path.names file.1 < Path.names other.1) ∧
      (scripts ≠ [] → collect shelfDisk "/shelf" = .ok files) ∧
      (scripts = [] → collect shelfDisk "/shelf" = .error ⟨.command (.noSources "/shelf"), none⟩) ∧
      Failure.code ⟨.command (.noSources "/shelf"), none⟩ = "CLI_SOURCE_EMPTY" := by
  have note : shelfDisk.look "/shelf/note" = .ok (.file "N".toUTF8) := by rfl
  have found : shelfDisk.look "/shelf" = .ok (.folder shelf) := by rfl
  have ordered : shelf.Ordered := by decide +kernel
  exact ⟨note, (collect_exact shelfDisk "/shelf/note").1 _ note, found, ordered,
    (collect_exact shelfDisk "/shelf").2 shelf found ordered⟩

end Script

end Parley
