import Parley.Files.Path
import Parley.Proofs.Files.Folder

/-! The files below a folder. A walk through a folder that is in order meets every file below it once, in the order
of the names that lead there, and spells its path out of them. -/

namespace Parley

namespace Path

/-- A name that stands in a path as it is. -/
def IsName (name : String) : Prop := name ≠ "" ∧ '/' ∉ name.toList

instance (name : String) : Decidable (IsName name) :=
  inferInstanceAs (Decidable (name ≠ "" ∧ '/' ∉ name.toList))

theorem names_of_isName {name : String} (named : IsName name) : names name = [name] := by
  have filled : name.toList ≠ [] := by simpa using named.1
  simp [names, Text.split_of_not_mem named.2, filled]

/-- A slash parts the names before it from those behind it. -/
theorem names_slash (front back : String) : names (front ++ "/" ++ back) = names front ++ names back := by
  have spelled : (front ++ "/" ++ back).toList = front.toList ++ '/' :: back.toList := by simp
  rw [names, spelled, Text.split_append, List.filter_append, List.map_append]
  rfl

theorem names_intercalate {given : List String} (named : ∀ name ∈ given, IsName name) :
    names ("/".intercalate given) = given := by
  induction given with
  | nil => rfl
  | cons name rest ih =>
    obtain ⟨first, named⟩ := List.forall_mem_cons.mp named
    cases rest with
    | nil => rw [String.intercalate_singleton, names_of_isName first]
    | cons second more =>
      rw [String.intercalate_cons_cons, names_slash, names_of_isName first, ih named]
      rfl

def front (folder : String) : String :=
  if folder.isEmpty || demandsFolder folder then folder else folder ++ "/"

theorem join_of_relative (folder : String) {path : String} (relative : isAbsolute path = false) :
    join folder path = front folder ++ path := by
  rw [join, if_neg (by simp [relative]), front]
  split <;> rfl

theorem names_front (folder path : String) : names (front folder ++ path) = names folder ++ names path := by
  unfold front
  split
  · rename_i closed
    rcases Bool.or_eq_true_iff.mp closed with empty | slash
    · obtain rfl : folder = "" := by simpa using empty
      simp [names, Text.split]
    · obtain ⟨above, spelled⟩ := List.getLast?_eq_some_iff.mp (of_decide_eq_true slash)
      obtain rfl : folder = String.ofList above ++ "/" := by
        apply String.toList_injective
        simpa using spelled
      have bare : names (String.ofList above ++ "/") = names (String.ofList above) := by
        have parted := names_slash (String.ofList above) ""
        rwa [String.append_empty, show names "" = [] from rfl, List.append_nil] at parted
      rw [names_slash, bare]
  · exact names_slash folder path

theorem IsName.relative_append {name : String} (named : IsName name) (rest : String) :
    isAbsolute (name ++ rest) = false := by
  obtain ⟨filled, whole⟩ := named
  cases spelled : name.toList with
  | nil => exact absurd (String.toList_eq_nil_iff.mp spelled) filled
  | cons c more =>
    rw [spelled] at whole
    have other : c ≠ '/' := Ne.symm (List.ne_of_not_mem_cons whole)
    simp [isAbsolute, spelled, other]

theorem IsName.relative {name : String} (named : IsName name) : isAbsolute name = false := by
  have bare := named.relative_append ""
  rwa [String.append_empty] at bare

theorem IsName.relative_intercalate {name : String} (named : IsName name) (rest : List String) :
    isAbsolute ("/".intercalate (name :: rest)) = false := by
  cases rest with
  | nil =>
    rw [String.intercalate_singleton]
    exact named.relative
  | cons second more =>
    rw [String.intercalate_cons_cons, String.append_assoc]
    exact named.relative_append _

end Path

namespace Folder

def names : Folder → List String
  | empty => []
  | file name _ rest | folder name _ rest => name :: rest.names

def entries : Folder → List (List String × ByteArray)
  | empty => []
  | file name content rest => ([name], content) :: rest.entries
  | folder name inside rest =>
    inside.entries.map (fun entry => (name :: entry.1, entry.2)) ++ rest.entries

/-- The names of a folder are names, each of them before those behind it, and so are those of the folders in it. -/
def Ordered : Folder → Prop
  | empty => True
  | file name _ rest => Path.IsName name ∧ (∀ other ∈ rest.names, name < other) ∧ rest.Ordered
  | folder name inside rest =>
    Path.IsName name ∧ (∀ other ∈ rest.names, name < other) ∧ inside.Ordered ∧ rest.Ordered

instance decidableOrdered : (start : Folder) → Decidable start.Ordered
  | empty => inferInstanceAs (Decidable True)
  | file name _ rest =>
    have := decidableOrdered rest
    inferInstanceAs (Decidable
      (Path.IsName name ∧ (∀ other ∈ rest.names, name < other) ∧ rest.Ordered))
  | folder name inside rest =>
    have := decidableOrdered inside
    have := decidableOrdered rest
    inferInstanceAs (Decidable
      (Path.IsName name ∧ (∀ other ∈ rest.names, name < other) ∧ inside.Ordered ∧ rest.Ordered))

/-- A file is found under a name of the folder, or in one. -/
theorem head_mem_names {start : Folder} {entry : List String × ByteArray} (listed : entry ∈ start.entries) :
    ∃ name rest, entry.1 = name :: rest ∧ name ∈ start.names := by
  induction start with
  | empty => cases listed
  | file name content rest ih =>
    rcases List.mem_cons.mp listed with rfl | listed
    · exact ⟨name, [], rfl, List.mem_cons_self⟩
    · obtain ⟨first, more, same, member⟩ := ih listed
      exact ⟨first, more, same, List.mem_cons_of_mem _ member⟩
  | folder name inside rest _ ih =>
    rcases List.mem_append.mp listed with listed | listed
    · obtain ⟨below, _, rfl⟩ := List.mem_map.mp listed
      exact ⟨name, below.1, rfl, List.mem_cons_self⟩
    · obtain ⟨first, more, same, member⟩ := ih listed
      exact ⟨first, more, same, List.mem_cons_of_mem _ member⟩

theorem ne_nil_of_entries {start : Folder} {entry : List String × ByteArray} (listed : entry ∈ start.entries) :
    entry.1 ≠ [] := by
  obtain ⟨name, rest, same, _⟩ := head_mem_names listed
  rw [same]
  exact List.cons_ne_nil name rest

theorem nil_not_mem_entries (start : Folder) (content : ByteArray) : ([], content) ∉ start.entries :=
  fun listed => ne_nil_of_entries listed rfl

theorem not_mem_entries {start : Folder} {name : String} (absent : name ∉ start.names) (rest : List String)
    (content : ByteArray) : (name :: rest, content) ∉ start.entries := by
  intro listed
  obtain ⟨first, more, same, member⟩ := head_mem_names listed
  cases same
  exact absent member

theorem mem_entries_iff {start : Folder} (ordered : start.Ordered) (place : List String) (content : ByteArray) :
    (place, content) ∈ start.entries ↔ start.node? place = some (.file content) := by
  induction start generalizing place with
  | empty => cases place <;> simp [entries, node?, node?_cons, find?]
  | file name held rest ih =>
    obtain ⟨_, least, later⟩ := ordered
    cases place with
    | nil => simp [nil_not_mem_entries, node?]
    | cons first more =>
      rw [entries, List.mem_cons, node?_cons, find?]
      by_cases same : name = first
      · subst same
        have fresh : name ∉ rest.names := fun member => String.lt_irrefl _ (least name member)
        rw [if_pos rfl, Option.bind_some, or_iff_left (not_mem_entries fresh more content)]
        cases more <;> simp [Node.at?, eq_comm]
      · have other : (first :: more, content) ≠ ([name], held) := by
          intro equal
          cases equal
          exact same rfl
        rw [if_neg same, ← node?_cons, ← ih later, or_iff_right other]
  | folder name inside rest within ih =>
    obtain ⟨_, least, deeper, later⟩ := ordered
    cases place with
    | nil => simp [nil_not_mem_entries, node?]
    | cons first more =>
      rw [entries, List.mem_append, node?_cons, find?]
      by_cases same : name = first
      · subst same
        have fresh : name ∉ rest.names := fun member => String.lt_irrefl _ (least name member)
        rw [if_pos rfl, Option.bind_some, or_iff_left (not_mem_entries fresh more content)]
        simpa [Node.at?] using within deeper more
      · have other : (first :: more, content) ∉ inside.entries.map fun entry => (name :: entry.1, entry.2) := by
          intro listed
          obtain ⟨_, _, equal⟩ := List.mem_map.mp listed
          cases equal
          exact same rfl
        rw [if_neg same, ← node?_cons, ← ih later, or_iff_right other]

/-- What a name stands before, its paths stand before. -/
theorem lt_of_mem_entries {name : String} {rest : Folder} (least : ∀ other ∈ rest.names, name < other)
    (below : List String) {entry : List String × ByteArray} (listed : entry ∈ rest.entries) :
    name :: below < entry.1 := by
  obtain ⟨first, more, same, member⟩ := head_mem_names listed
  rw [same]
  exact List.cons_lt_cons_iff.mpr (.inl (least first member))

theorem pairwise_entries {start : Folder} (ordered : start.Ordered) :
    start.entries.Pairwise fun entry other => entry.1 < other.1 := by
  induction start with
  | empty => exact List.Pairwise.nil
  | file name content rest ih =>
    obtain ⟨_, least, later⟩ := ordered
    exact List.pairwise_cons.mpr ⟨fun entry listed => lt_of_mem_entries least [] listed, ih later⟩
  | folder name inside rest within ih =>
    obtain ⟨_, least, deeper, later⟩ := ordered
    refine List.pairwise_append.mpr ⟨?_, ih later, ?_⟩
    · refine List.pairwise_map.mpr ((within deeper).imp ?_)
      exact fun before => List.cons_lt_cons_iff.mpr (.inr ⟨rfl, before⟩)
    · intro entry inner other listed
      obtain ⟨below, _, rfl⟩ := List.mem_map.mp inner
      exact lt_of_mem_entries least below.1 listed

theorem isName_of_entries {start : Folder} (ordered : start.Ordered) {entry : List String × ByteArray}
    (listed : entry ∈ start.entries) : ∀ name ∈ entry.1, Path.IsName name := by
  induction start generalizing entry with
  | empty => cases listed
  | file name content rest ih =>
    obtain ⟨named, _, later⟩ := ordered
    rcases List.mem_cons.mp listed with rfl | listed
    · exact List.forall_mem_singleton.mpr named
    · exact ih later listed
  | folder name inside rest within ih =>
    obtain ⟨named, _, deeper, later⟩ := ordered
    rcases List.mem_append.mp listed with listed | listed
    · obtain ⟨below, inner, rfl⟩ := List.mem_map.mp listed
      exact List.forall_mem_cons.mpr ⟨named, within deeper inner⟩
    · exact ih later listed

theorem files_eq {start : Folder} (ordered : start.Ordered) {above : String → String} {front : String}
    (fronted : ∀ name, Path.IsName name → above name = front ++ name) :
    start.files above = start.entries.map fun entry => (front ++ "/".intercalate entry.1, entry.2) := by
  induction start generalizing above front with
  | empty => rfl
  | file name content rest ih =>
    obtain ⟨named, _, later⟩ := ordered
    rw [files, entries, List.map_cons, ih later fronted, fronted name named, String.intercalate_singleton]
  | folder name inside rest within ih =>
    obtain ⟨named, _, deeper, later⟩ := ordered
    have further (below : String) (_ : Path.IsName below) :
        above name ++ "/" ++ below = front ++ name ++ "/" ++ below := by
      rw [fronted name named]
    rw [files, entries, List.map_append, ih later fronted, within deeper further, List.map_map]
    congr 1
    refine List.map_congr_left fun entry listed => ?_
    simp only [Function.comp_apply, String.intercalate_cons_of_ne_nil (ne_nil_of_entries listed),
      String.append_assoc]

end Folder

end Parley
