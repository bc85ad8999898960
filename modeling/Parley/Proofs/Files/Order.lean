import Parley.Proofs.Files.Disk
import Parley.Proofs.Files.Entries

namespace Parley

namespace Path

/-- The names along a path are names, however many slashes there are between them. -/
theorem isName_of_mem_names {path name : String} (listed : name ∈ names path) : IsName name := by
  obtain ⟨piece, cut, rfl⟩ := List.mem_map.mp listed
  obtain ⟨cut, filled⟩ := List.mem_filter.mp cut
  refine ⟨?_, ?_⟩
  · simpa using filled
  · rw [String.toList_ofList]
    exact Text.not_mem_of_mem_split cut

theorem isName_of_mem_parentNames {path name : String} (listed : name ∈ parentNames path) : IsName name := by
  have kept := (List.dropLast_sublist _).subset listed
  split at kept
  · exact isName_of_mem_names (List.mem_filter.mp kept).1
  · rcases List.mem_append.mp kept with first | later
    · exact isName_of_mem_names (List.mem_of_mem_take first)
    · exact isName_of_mem_names (List.mem_of_mem_drop (List.mem_filter.mp later).1)

end Path

def Node.Ordered : Node → Prop
  | file _ => True
  | folder inside => inside.Ordered

namespace Folder

theorem names_entry (name : String) (node : Node) (rest : Folder) :
    (node.entry name rest).names = name :: rest.names := by
  cases node <;> rfl

theorem ordered_entry_iff {name : String} {node : Node} {rest : Folder} :
    (node.entry name rest).Ordered ↔
      Path.IsName name ∧ (∀ other ∈ rest.names, name < other) ∧ node.Ordered ∧ rest.Ordered := by
  cases node with
  | file content => simp [Node.entry, Node.Ordered, Ordered]
  | folder inside => rfl

theorem mem_names_put {name wanted : String} {node : Node} {start : Folder}
    (member : wanted ∈ (start.put name node).names) : wanted = name ∨ wanted ∈ start.names := by
  have step (title : String) (first : Node) (rest : Folder)
      (ih : wanted ∈ (rest.put name node).names → wanted = name ∨ wanted ∈ rest.names)
      (member : wanted ∈ ((first.entry title rest).put name node).names) :
      wanted = name ∨ wanted ∈ (first.entry title rest).names := by
    rw [put_entry] at member
    rw [names_entry, List.mem_cons]
    split at member
    · rw [names_entry, List.mem_cons] at member
      exact member.elim (fun here => .inr (.inl here)) fun later => (ih later).imp_right .inr
    · split at member
      · rw [names_entry, List.mem_cons] at member
        exact member.imp_right .inr
      · rw [names_entry, names_entry, List.mem_cons, List.mem_cons] at member
        exact member
  induction start with
  | empty =>
    rw [put, names_entry] at member
    exact .inl (List.mem_singleton.mp member)
  | file title content rest ih => exact step title (.file content) rest ih member
  | folder title inside rest _ ih => exact step title (.folder inside) rest ih member

theorem Ordered.put {start : Folder} (ordered : start.Ordered) {name : String} (named : Path.IsName name)
    {node : Node} (inner : node.Ordered) : (start.put name node).Ordered := by
  have step (title : String) (first : Node) (rest : Folder)
      (ih : rest.Ordered → (rest.put name node).Ordered) (ordered : (first.entry title rest).Ordered) :
      ((first.entry title rest).put name node).Ordered := by
    obtain ⟨titled, least, held, later⟩ := ordered_entry_iff.mp ordered
    rw [put_entry]
    split
    · rename_i before
      refine ordered_entry_iff.mpr ⟨titled, fun other member => ?_, held, ih later⟩
      rcases mem_names_put member with rfl | member
      · exact before
      · exact least other member
    · rename_i notBefore
      split
      · rename_i same
        exact ordered_entry_iff.mpr ⟨named, same ▸ least, inner, later⟩
      · rename_i apart
        have before : name < title :=
          String.not_le.mp fun behind => apart (String.le_antisymm behind (String.not_lt.mp notBefore))
        refine ordered_entry_iff.mpr ⟨named, fun other member => ?_, inner, ordered⟩
        rw [names_entry] at member
        rcases List.mem_cons.mp member with rfl | member
        · exact before
        · exact String.lt_trans before (least other member)
  induction start with
  | empty => exact ordered_entry_iff.mpr ⟨named, List.forall_mem_nil _, inner, trivial⟩
  | file title content rest ih => exact step title (.file content) rest ih ordered
  | folder title inside rest _ ih => exact step title (.folder inside) rest ih ordered

theorem Ordered.find? {start : Folder} (ordered : start.Ordered) {name : String} {node : Node}
    (found : start.find? name = some node) : node.Ordered := by
  have step (title : String) (first : Node) (rest : Folder)
      (ih : rest.Ordered → rest.find? name = some node → node.Ordered)
      (ordered : (first.entry title rest).Ordered) (found : (first.entry title rest).find? name = some node) :
      node.Ordered := by
    obtain ⟨-, -, held, later⟩ := ordered_entry_iff.mp ordered
    rw [find?_entry] at found
    split at found
    · cases found
      exact held
    · exact ih later found
  induction start with
  | empty => cases found
  | file title content rest ih => exact step title (.file content) rest ih ordered found
  | folder title inside rest _ ih => exact step title (.folder inside) rest ih ordered found

theorem Ordered.store {start : Folder} (ordered : start.Ordered) {node : Node} (inner : node.Ordered)
    {place : List String} (named : ∀ name ∈ place, Path.IsName name) : (start.store node place).Ordered := by
  induction place generalizing start with
  | nil => exact ordered
  | cons name rest ih =>
    obtain ⟨first, later⟩ := List.forall_mem_cons.mp named
    cases rest with
    | nil => exact ordered.put first inner
    | cons second more =>
      rw [store_cons]
      split
      · rename_i inside found
        exact ordered.put first (ih (ordered.find? found) later)
      · exact ordered

end Folder

namespace Disk

structure Ordered (disk : Disk) : Prop where
  root : disk.root.Ordered
  working : ∀ start, disk.working = some start → ∀ name ∈ start, Path.IsName name

theorem isName_of_walk {disk : Disk} {here names place : List String} (begun : ∀ name ∈ here, Path.IsName name)
    (named : ∀ name ∈ names, Path.IsName name) (found : disk.walk here names = .ok place) :
    ∀ name ∈ place, Path.IsName name := by
  induction names generalizing here with
  | nil =>
    cases found
    exact begun
  | cons name rest ih =>
    obtain ⟨first, later⟩ := List.forall_mem_cons.mp named
    refine ih ?_ later (walk_cons.mp found).2
    unfold step
    split
    · exact begun
    · split
      · exact fun other member => begun other ((List.dropLast_sublist here).subset member)
      · exact List.forall_mem_append.mpr ⟨begun, List.forall_mem_singleton.mpr first⟩

namespace Ordered

variable {disk after : Disk} {absolute : Bool} {names : List String} {path : String}

theorem locate (ordered : disk.Ordered) (named : ∀ name ∈ names, Path.IsName name) {place : List String}
    (found : disk.locate absolute names = .ok place) : ∀ name ∈ place, Path.IsName name := by
  obtain ⟨start, begun, walked⟩ := locate_ok_iff.mp found
  refine isName_of_walk ?_ named walked
  cases absolute with
  | true =>
    cases begun
    exact List.forall_mem_nil _
  | false => exact ordered.working start begun

theorem store (ordered : disk.Ordered) {node : Node} (inner : node.Ordered) {place : List String}
    (named : ∀ name ∈ place, Path.IsName name) : (disk.store node place).Ordered :=
  ⟨ordered.root.store inner named, ordered.working⟩

theorem makeAbsentFolder (ordered : disk.Ordered) (named : ∀ name ∈ names, Path.IsName name)
    (created : disk.makeAbsentFolder absolute names = .ok after) : after.Ordered := by
  unfold Disk.makeAbsentFolder at created
  split at created
  · split at created
    · cases created
      exact ordered
    · cases created
  · obtain ⟨place, located, created⟩ := bind_ok created
    split at created
    · cases created
    · cases created
      exact ordered.store (show (Node.folder .empty).Ordered from trivial) (ordered.locate named located)

theorem makeFolders (ordered : disk.Ordered) (named : ∀ name ∈ names, Path.IsName name) :
    (Disk.makeFolders absolute names disk).1.Ordered := by
  induction names with
  | nil => exact ordered
  | cons name above ih =>
    have whole : ∀ other ∈ (name :: above).reverse, Path.IsName other :=
      fun other member => named other (List.mem_reverse.mp member)
    have below := ih (List.forall_mem_cons.mp named).2
    simp only [Disk.makeFolders]
    split
    · rename_i created
      exact ordered.makeAbsentFolder whole created
    · split
      · rename_i stopped
        rw [stopped] at below
        exact below
      · rename_i reached
        rw [reached] at below
        split
        · rename_i created
          exact below.makeAbsentFolder whole created
        · exact below
    · exact ordered

theorem write (ordered : disk.Ordered) {content : ByteArray} (stored : disk.write path content = .ok after) :
    after.Ordered := by
  obtain ⟨_, _, place, located, _, rfl⟩ := write_ok_iff.mp stored
  have named : ∀ name ∈ place, Path.IsName name :=
    ordered.locate (fun _ listed => Path.isName_of_mem_names listed) located
  exact ordered.store (show (Node.file content).Ordered from trivial) named

/-- A save leaves the folders in order, also where it stops half way. -/
theorem save (ordered : disk.Ordered) (path : String) (content : ByteArray) :
    (disk.save path content).1.Ordered := by
  have made : (Disk.makeFolders (Path.isAbsolute path) (Path.parentNames path).reverse disk).1.Ordered :=
    ordered.makeFolders fun _ listed => Path.isName_of_mem_parentNames (List.mem_reverse.mp listed)
  unfold Disk.save
  split
  · rename_i stopped
    rw [stopped] at made
    exact made
  · rename_i reached
    rw [reached] at made
    split
    · rename_i stored
      exact made.write stored
    · exact made

end Ordered

end Disk

end Parley
