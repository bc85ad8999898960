import Parley.Proofs.Dialogue.Lookup

/-! The index of a dialogue against the search that it stands for. Entering the branches from the front, where a
header that is there already keeps its position, makes the same index, and no move of the active header changes what
is found. -/

namespace Parley

def enterBranch (index : Std.TreeMap String Nat) (entry : Branch × Nat) : Std.TreeMap String Nat :=
  index.insertIfNew entry.1.header entry.2

theorem enterBranch_getElem? (index : Std.TreeMap String Nat) (branch : Branch) (position : Nat) (header : String) :
    (enterBranch index (branch, position))[header]? =
      index[header]?.or (if branch.header = header then some position else none) := by
  rw [enterBranch, Std.TreeMap.getElem?_insertIfNew]
  simp only [Std.compare_eq_iff_eq, Std.TreeMap.mem_iff_isSome_getElem?]
  by_cases same : branch.header = header
  · rw [same]
    cases index[header]? <;> simp
  · simp [same]

/-- A header that is not in the index yet gets the position of the first branch that carries it. -/
theorem foldl_enterBranch_getElem? (index : Std.TreeMap String Nat) (position : Nat) (branches : List Branch)
    (header : String) :
    ((branches.zipIdx position).foldl enterBranch index)[header]? =
      index[header]?.or (indexFrom position branches)[header]? := by
  induction branches generalizing index position with
  | nil => simp [indexFrom]
  | cons branch rest ih =>
    rw [List.zipIdx_cons, List.foldl_cons, ih, enterBranch_getElem?, Option.or_assoc, indexFrom,
      Std.TreeMap.getElem?_insert]
    by_cases same : branch.header = header <;> simp [same]

namespace Dialogue

/-- The index is what entering the branches from the front makes. -/
theorem foldl_enterBranch_equiv_index (dialogue : Dialogue) :
    (dialogue.branches.zipIdx.foldl enterBranch ∅).Equiv dialogue.index := by
  apply Std.TreeMap.Equiv.of_forall_constGet?_eq
  intro header
  have entered := foldl_enterBranch_getElem? ∅ 0 dialogue.branches header
  rw [Std.TreeMap.getElem?_emptyc, Option.none_or, ← dialogue.indexed] at entered
  exact entered

theorem foldl_moveTo (dialogue : Dialogue) (headers : List String) :
    headers.foldl moveTo dialogue = dialogue.moveTo (headers.getLastD dialogue.active) := by
  induction headers generalizing dialogue with
  | nil => rfl
  | cons header rest ih =>
    rw [List.foldl_cons, ih, List.getLastD_cons]
    rfl

/-- A position in the index is that of a branch, and of the branch that is found. -/
theorem branch?_of_getElem? {dialogue : Dialogue} {header : String} {position : Nat}
    (stored : dialogue.index[header]? = some position) :
    ∃ inside : position < dialogue.branches.length,
      dialogue.branch? header = some dialogue.branches[position] := by
  have first := stored
  rw [dialogue.indexed, indexFrom_getElem?, Option.map_eq_some_iff] at first
  obtain ⟨offset, found, rfl⟩ := first
  obtain ⟨inside, _⟩ := List.findIdx?_eq_some_iff_getElem.mp found
  refine ⟨inside, ?_⟩
  rw [branch?, stored]
  exact List.getElem?_eq_getElem inside

/-- However the active header of a dialogue is moved, its index answers as a search of its branches from the front
would: a header is found where the first branch carries it, at a position within the branches, and not at all if none
does. The active branch is lost exactly if no branch carries the active header. -/
theorem lookup_eq_scan {title : String} {branches : List Branch} {dialogue : Dialogue}
    (built : ofBranches? title branches = .ok dialogue) (headers : List String) :
    let moved := headers.foldl moveTo dialogue
    moved.branches = branches ∧ moved.active = headers.getLastD dialogue.active ∧
    some dialogue.active = branches.head?.map Branch.header ∧
    (∀ header, moved.branch? header = branches.find? fun branch => branch.header = header) ∧
    (∀ header position, moved.index[header]? = some position →
      ∃ inside : position < moved.branches.length, moved.branch? header = some moved.branches[position]) ∧
    (branches.zipIdx.foldl enterBranch ∅).Equiv moved.index ∧
    (∀ branch, moved.activeBranch = .ok branch ↔
      branches.find? (fun branch => branch.header = moved.active) = some branch) ∧
    ((∃ failure, moved.activeBranch = .error failure) ↔
      ∀ branch ∈ branches, branch.header ≠ moved.active) := by
  intro moved
  obtain ⟨same, first⟩ := start_of_ofBranches? built
  have last : moved = dialogue.moveTo (headers.getLastD dialogue.active) := foldl_moveTo dialogue headers
  have kept : moved.branches = branches := (congrArg Dialogue.branches last).trans same
  refine ⟨kept, congrArg Dialogue.active last, first, ?_, fun _ _ => branch?_of_getElem?, ?_, ?_, ?_⟩
  · intro header
    rw [branch?_eq_find?, kept]
  · rw [← kept]
    exact moved.foldl_enterBranch_equiv_index
  · intro branch
    rw [activeBranch_eq_ok_iff, branch?_eq_find?, kept]
  · simp only [activeBranch_eq_error_iff, exists_and_left, exists_eq, and_true]
    rw [branch?_eq_none_iff, kept, List.mem_map]
    simp

/-- The header of the first branch comes again. -/
def tavern : List Branch :=
  [⟨"door", "Come in.", [⟨"enter", [⟨.goto, "bar"⟩]⟩]⟩, ⟨"bar", "Yes?", [⟨"leave", [⟨.goto, "door"⟩]⟩]⟩,
    ⟨"door", "Closed.", []⟩]

theorem lookup_eq_scan_at_tavern :
    let dialogue : Dialogue := ⟨"Tavern", tavern, "door", indexFrom 0 tavern, rfl⟩
    let moved := ["bar", "cellar", "door"].foldl moveTo dialogue
    let strayed := ["bar", "cellar"].foldl moveTo dialogue
    ofBranches? "Tavern" tavern = .ok dialogue ∧
    moved.active = "door" ∧ moved.branch? "door" = tavern[0]? ∧ moved.branch? "bar" = tavern[1]? ∧
    moved.branch? "cellar" = none ∧ moved.activeBranch = .ok tavern[0] ∧
    (∃ inside : 0 < moved.branches.length, moved.branch? "door" = some moved.branches[0]) ∧
    (tavern.zipIdx.foldl enterBranch ∅).Equiv moved.index ∧
    strayed.active = "cellar" ∧ ∃ failure, strayed.activeBranch = .error failure := by
  intro dialogue moved strayed
  have built : ofBranches? "Tavern" tavern = .ok dialogue := rfl
  obtain ⟨_, active, _, found, inside, entered, answers, _⟩ := lookup_eq_scan built ["bar", "cellar", "door"]
  obtain ⟨_, away, _, _, _, _, _, lost⟩ := lookup_eq_scan built ["bar", "cellar"]
  have stored : moved.index["door"]? = some 0 := by decide
  have absent : ∀ branch ∈ tavern, branch.header ≠ strayed.active := by decide
  exact ⟨built, active, found "door", found "bar", found "cellar", (answers _).mpr rfl, inside "door" 0 stored,
    entered, away, lost.mpr absent⟩

end Dialogue

end Parley
