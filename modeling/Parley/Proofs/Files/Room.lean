import Mathlib.Data.List.Induction
import Parley.Proofs.Files.Disk

namespace Parley

/-- Names that lead down, each into the folder it names. -/
def Path.Plain (names : List String) : Prop := ∀ name ∈ names, name ≠ "." ∧ name ≠ ".."

theorem Path.parentNames_of_plain {path : String} (plain : Plain (names path)) :
    parentNames path = (names path).dropLast := by
  have kept (part : List String) (inside : ∀ name ∈ part, name ∈ names path) :
      part.filter (· ≠ ".") = part :=
    List.filter_eq_self.mpr fun name listed => by simpa using (plain name (inside name listed)).1
  unfold parentNames
  dsimp only
  split
  · rw [kept _ fun _ => id]
  · rw [kept _ fun _ => List.mem_of_mem_drop, List.take_append_drop]

namespace Disk

variable {disk : Disk} {start names : List String}

/-- No file stands where `names` need a folder. -/
def Clear (disk : Disk) (start names : List String) : Prop :=
  ∀ front rest, names = front ++ rest → rest ≠ [] → ∀ content, ¬disk.HasFile (start ++ front) content

theorem HasFolder.of_append {place rest : List String} (folder : disk.HasFolder (place ++ rest)) :
    disk.HasFolder place := by
  induction rest using List.reverseRecOn with
  | nil => simpa using folder
  | append_singleton front last ih =>
    have above := folder.dropLast
    rw [← List.append_assoc, List.dropLast_concat] at above
    exact ih above

theorem not_hasFile_of_hasFolder {place : List String} {content : ByteArray}
    (folder : disk.HasFolder place) : ¬disk.HasFile place content := by
  obtain ⟨inside, found⟩ := folder
  simp [HasFile, found]

theorem walk_cons_of_plain {here rest : List String} {name : String} (plain : name ≠ "." ∧ name ≠ "..")
    (folder : disk.HasFolder here) :
    disk.walk here (name :: rest) = disk.walk (here ++ [name]) rest := by
  obtain ⟨inside, found⟩ := folder
  simp [walk, found, plain.1, plain.2]

theorem walk_of_hasFolder (plain : Path.Plain names) (folder : disk.HasFolder (start ++ names.dropLast)) :
    disk.walk start names = .ok (start ++ names) := by
  induction names generalizing start with
  | nil => rw [walk, List.append_nil]
  | cons name rest ih =>
    obtain ⟨first, later⟩ := List.forall_mem_cons.mp plain
    rw [walk_cons_of_plain first folder.of_append]
    cases rest with
    | nil => rfl
    | cons second more =>
      have deeper : disk.HasFolder (start ++ [name] ++ (second :: more).dropLast) := by
        simpa using folder
      simpa using ih later deeper

theorem foldl_step_of_plain (plain : Path.Plain names) (start : List String) :
    names.foldl step start = start ++ names := by
  induction names generalizing start with
  | nil => rw [List.foldl_nil, List.append_nil]
  | cons name rest ih =>
    obtain ⟨⟨here, above⟩, later⟩ := List.forall_mem_cons.mp plain
    rw [List.foldl_cons, ih later, step, if_neg here, if_neg above, List.append_assoc]
    rfl

/-- A walk that succeeds has a folder before each of its names. -/
theorem hasFolder_of_walk {here front rest place : List String} (plain : Path.Plain (front ++ rest))
    (named : rest ≠ []) (found : disk.walk here (front ++ rest) = .ok place) :
    disk.HasFolder (here ++ front) := by
  induction front generalizing here with
  | nil =>
    obtain ⟨name, more, rfl⟩ := List.exists_cons_of_ne_nil named
    simpa using (walk_cons.mp found).1
  | cons name front ih =>
    obtain ⟨⟨dot, dots⟩, later⟩ := List.forall_mem_cons.mp plain
    have further := (walk_cons.mp found).2
    rw [step, if_neg dot, if_neg dots] at further
    simpa using ih later further

/-- On the way to a place that no file blocks, a folder may be missing but nothing else can go wrong. -/
theorem walk_cases (plain : Path.Plain names) (clear : disk.Clear start names) :
    (names ≠ [] → disk.HasFolder (start ++ names.dropLast)) ∧
        disk.walk start names = .ok (start ++ names) ∨
      disk.walk start names = .error .missing := by
  induction names generalizing start with
  | nil => exact .inl ⟨fun named => absurd rfl named, by rw [walk, List.append_nil]⟩
  | cons name rest ih =>
    obtain ⟨first, later⟩ := List.forall_mem_cons.mp plain
    cases found : disk.root.node? start with
    | none => exact .inr (by simp [walk, found])
    | some node =>
      cases node with
      | file content =>
        have blocked : disk.HasFile (start ++ []) content := by rwa [List.append_nil]
        exact absurd blocked (clear [] _ rfl (List.cons_ne_nil _ _) content)
      | folder inside =>
        have here : disk.HasFolder start := ⟨inside, found⟩
        have further : disk.Clear (start ++ [name]) rest := by
          intro front back split named
          simpa using clear (name :: front) back (by rw [split]; rfl) named
        rw [walk_cons_of_plain first here]
        rcases ih later further with ⟨parent, led⟩ | lost
        · refine .inl ⟨fun _ => ?_, by simpa using led⟩
          cases rest with
          | nil => simpa using here
          | cons second more => simpa using parent (List.cons_ne_nil _ _)
        · exact .inr lost

theorem hasFolder_store_iff {place other : List String} (absent : disk.root.node? place = none)
    (apart : other ≠ place) :
    (disk.store (.folder .empty) place).HasFolder other ↔ disk.HasFolder other := by
  have bare (rest : List String) (deeper : rest ≠ []) : (Node.folder .empty).at? rest = none := by
    cases rest with
    | nil => exact absurd rfl deeper
    | cons name more => simp [Node.at?, Folder.node?_cons, Folder.find?]
  have same := Folder.content?_store (fun inside found => by rw [absent] at found; cases found) bare apart
  rw [hasFolder_iff, hasFolder_iff]
  exact ⟨same.symm.trans, same.trans⟩

theorem makeAbsentFolder_ok {absolute : Bool} (begun : disk.start? absolute = some start)
    (plain : Path.Plain names) (named : names ≠ []) (parent : disk.HasFolder (start ++ names.dropLast))
    (free : ∀ content, ¬disk.HasFile (start ++ names) content) :
    ∃ made, disk.makeAbsentFolder absolute names = .ok made ∧ made.HasFolder (start ++ names) ∧
      ∀ other, other ≠ start ++ names → made.HasFolder other → disk.HasFolder other := by
  have located : disk.locate absolute names = .ok (start ++ names) :=
    locate_ok_iff.mpr ⟨start, begun, walk_of_hasFolder plain parent⟩
  cases found : disk.root.node? (start ++ names) with
  | none =>
    have made : disk.makeFolder absolute names = .ok (disk.store (.folder .empty) (start ++ names)) := by
      rw [makeFolder, located]
      simp [found, store]
    refine ⟨_, by rw [makeAbsentFolder, made], ?_, fun other apart =>
      (hasFolder_store_iff found apart).mp⟩
    rw [← List.dropLast_append_of_ne_nil named] at parent
    obtain ⟨inside, above⟩ := parent
    exact ⟨.empty, Folder.node?_store_self _ (by simp [named]) above⟩
  | some node =>
    cases node with
    | file content => exact absurd found (free content)
    | folder inside =>
      have taken : disk.makeFolder absolute names = .error .taken := by
        rw [makeFolder, located]
        simp [found]
      have there : disk.isFolderAt absolute names = true := by
        rw [isFolderAt, located]
        simp [found, Node.isFolder]
      exact ⟨disk, by rw [makeAbsentFolder, taken, there]; rfl, ⟨inside, found⟩, fun _ _ => id⟩

theorem keeps_of_makeFolders {absolute : Bool} {up : List String} {made : Disk}
    {result : Except FileFault Unit} (reached : makeFolders absolute up disk = (made, result)) :
    disk.Keeps made none := by
  have kept := makeFolders_keeps absolute up disk none
  rwa [reached] at kept

/-- Folders are created down to a place that no file blocks, and none below it. -/
theorem makeFolders_ok {absolute : Bool} {up : List String} (begun : disk.start? absolute = some start)
    (home : disk.HasFolder start) (plain : Path.Plain up.reverse)
    (clear : ∀ front rest, up.reverse = front ++ rest → ∀ content,
      ¬disk.HasFile (start ++ front) content) :
    ∃ made, makeFolders absolute up disk = (made, .ok ()) ∧ made.HasFolder (start ++ up.reverse) ∧
      ∀ other, start.length + up.length < other.length → made.HasFolder other → disk.HasFolder other := by
  induction up with
  | nil => exact ⟨disk, rfl, by simpa using home, fun _ _ => id⟩
  | cons name above ih =>
    have named : (name :: above).reverse ≠ [] := by simp
    have front : (name :: above).reverse.dropLast = above.reverse := by simp
    have free := clear (name :: above).reverse [] (by simp)
    have long {other : List String} (deep : start.length + (name :: above).length < other.length) :
        other ≠ start ++ (name :: above).reverse := by
      rintro rfl
      simp at deep
    have unblocked : disk.Clear start (name :: above).reverse := fun front rest split _ =>
      clear front rest split
    rcases walk_cases plain unblocked with ⟨parent, led⟩ | lost
    · obtain ⟨made, created, there, others⟩ := makeAbsentFolder_ok begun plain named (parent named) free
      refine ⟨made, ?_, there, fun other deep => others other (long deep)⟩
      simp only [makeFolders, created]
    · have missing : disk.makeAbsentFolder absolute (name :: above).reverse = .error .missing := by
        have unlocated : disk.locate absolute (name :: above).reverse = .error .missing := by
          unfold start? at begun
          rw [locate, begun]
          exact lost
        rw [makeAbsentFolder, makeFolder, unlocated]
        rfl
      obtain ⟨below, reached, there, others⟩ := ih
        (fun name listed => plain name (by rw [List.reverse_cons]; exact List.mem_append_left _ listed))
        (fun front rest split => clear front (rest ++ [name]) (by simp [split]))
      have kept := keeps_of_makeFolders reached
      have free content : ¬below.HasFile (start ++ (name :: above).reverse) content :=
        fun file => free content ((kept.files (by simp)).mp file)
      obtain ⟨made, created, deeper, more⟩ := makeAbsentFolder_ok ((kept.start? absolute).trans begun) plain
        named (by rwa [front]) free
      refine ⟨made, by simp only [makeFolders, missing, reached, created], deeper, ?_⟩
      intro other deep folder
      exact others other (by simp at deep ⊢; omega) (more other (long deep) folder)

section Save

variable {path : String} {content : ByteArray}

theorem clear_of_save (plain : Path.Plain (Path.names path))
    (begun : disk.start? (Path.isAbsolute path) = some start)
    (saved : (disk.save path content).2 = .ok ()) :
    disk.Clear start (Path.names path) ∧ ¬disk.HasFolder (start ++ Path.names path) := by
  unfold save at saved
  split at saved
  · cases saved
  · rename_i made reached
    have kept := keeps_of_makeFolders reached
    split at saved
    · rename_i after stored
      obtain ⟨-, -, place, located, free, -⟩ := write_ok_iff.mp stored
      obtain ⟨home, same, walked⟩ := locate_ok_iff.mp located
      rw [kept.start?, begun] at same
      cases same
      rw [walk_eq walked, foldl_step_of_plain plain] at free
      refine ⟨?_, fun folder => free (kept.folders folder)⟩
      intro front rest split named content blocked
      rw [split] at plain walked
      have file : made.HasFile (start ++ front) content := (kept.files (by simp)).mpr blocked
      exact not_hasFile_of_hasFolder (hasFolder_of_walk plain named walked) file
    · cases saved

theorem save_of_clear (written : path.isEmpty = false) (file : Path.demandsFolder path = false)
    (plain : Path.Plain (Path.names path)) (begun : disk.start? (Path.isAbsolute path) = some start)
    (home : disk.HasFolder start) (clear : disk.Clear start (Path.names path))
    (free : ¬disk.HasFolder (start ++ Path.names path)) : (disk.save path content).2 = .ok () := by
  have named : Path.names path ≠ [] := by
    intro none
    rw [none, List.append_nil] at free
    exact free home
  obtain ⟨parents, last, split⟩ : ∃ parents last, Path.names path = parents ++ [last] :=
    ⟨_, _, (List.dropLast_concat_getLast named).symm⟩
  have above : (Path.parentNames path).reverse.reverse = parents := by
    rw [List.reverse_reverse, Path.parentNames_of_plain plain, split, List.dropLast_concat]
  obtain ⟨made, reached, there, others⟩ : ∃ made, makeFolders (Path.isAbsolute path)
      (Path.parentNames path).reverse disk = (made, .ok ()) ∧
      made.HasFolder (start ++ (Path.parentNames path).reverse.reverse) ∧
      ∀ other, start.length + (Path.parentNames path).reverse.length < other.length →
        made.HasFolder other → disk.HasFolder other := by
    refine makeFolders_ok begun home ?_ ?_
    · intro name listed
      rw [above] at listed
      exact plain name (by simp [split, listed])
    · intro front rest parted
      rw [above] at parted
      exact clear front (rest ++ [last]) (by simp [split, parted]) (by simp)
  have kept := keeps_of_makeFolders reached
  have located : made.locate (Path.isAbsolute path) (Path.names path) = .ok (start ++ Path.names path) := by
    refine locate_ok_iff.mpr ⟨start, (kept.start? _).trans begun, walk_of_hasFolder plain ?_⟩
    rwa [split, List.dropLast_concat, ← above]
  have longer : start.length + (Path.parentNames path).reverse.length <
      (start ++ Path.names path).length := by
    have same := congrArg List.length above
    simp only [List.reverse_reverse] at same
    simp [split, same]
  have stored := (@write_ok_iff made _ path content).mpr
    ⟨written, file, _, located, fun folder => free (others _ longer folder), rfl⟩
  simp only [save, reached, stored]

/-- A file is saved at a plain path if and only if no file blocks the way to it and no folder has its place. -/
theorem save_ok_iff (written : path.isEmpty = false) (file : Path.demandsFolder path = false)
    (plain : Path.Plain (Path.names path)) (begun : disk.start? (Path.isAbsolute path) = some start)
    (home : disk.HasFolder start) (content : ByteArray) :
    (disk.save path content).2 = .ok () ↔
      disk.Clear start (Path.names path) ∧ ¬disk.HasFolder (start ++ Path.names path) :=
  ⟨clear_of_save plain begun, fun room => save_of_clear written file plain begun home room.1 room.2⟩

end Save

end Disk

end Parley
