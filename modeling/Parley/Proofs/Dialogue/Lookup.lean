import Parley.Dialogue.Basic
import Std.Data.TreeMap.Lemmas

namespace Parley

/-- The position entered for a header is that of the first branch that carries it. -/
theorem indexFrom_getElem? (position : Nat) (branches : List Branch) (header : String) :
    (indexFrom position branches)[header]? =
      (branches.findIdx? fun branch => branch.header = header).map (· + position) := by
  induction branches generalizing position with
  | nil => rfl
  | cons branch rest ih =>
    rw [indexFrom, Std.TreeMap.getElem?_insert, List.findIdx?_cons]
    by_cases same : branch.header = header
    · simp [same]
    · have shifted : (fun offset => offset + (position + 1)) = (· + position) ∘ (· + 1) := by
        funext offset
        exact (Nat.add_assoc offset position 1).symm.trans (Nat.add_right_comm offset position 1)
      simp only [Std.compare_eq_iff_eq, same, ↓reduceIte, decide_false, Bool.false_eq_true, ih,
        Option.map_map, shifted]

namespace Dialogue

theorem start_of_ofBranches? {title : String} {branches : List Branch} {dialogue : Dialogue}
    (built : ofBranches? title branches = .ok dialogue) :
    dialogue.branches = branches ∧ some dialogue.active = branches.head?.map Branch.header := by
  cases branches with
  | nil => cases built
  | cons first rest =>
    cases built
    exact ⟨rfl, rfl⟩

theorem branch?_eq_find? (dialogue : Dialogue) (header : String) :
    dialogue.branch? header = dialogue.branches.find? fun branch => branch.header = header := by
  rw [branch?, dialogue.indexed, indexFrom_getElem?, List.find?_eq_bind_findIdx?_getElem?]
  simp

theorem mem_of_branch? {dialogue : Dialogue} (found : dialogue.branch? header = some branch) :
    branch ∈ dialogue.branches ∧ branch.header = header := by
  rw [branch?_eq_find?] at found
  exact ⟨List.mem_of_find?_eq_some found, by simpa using List.find?_some found⟩

theorem activeBranch_eq_ok_iff {dialogue : Dialogue} {branch : Branch} :
    dialogue.activeBranch = .ok branch ↔ dialogue.branch? dialogue.active = some branch := by
  rw [activeBranch]
  cases dialogue.branch? dialogue.active <;> simp

theorem activeBranch_eq_error_iff {dialogue : Dialogue} {failure : Failure} :
    dialogue.activeBranch = .error failure ↔
      dialogue.branch? dialogue.active = none ∧
        failure = ⟨.play (.lost dialogue.active dialogue.title), none⟩ := by
  rw [activeBranch]
  cases dialogue.branch? dialogue.active <;> simp [eq_comm]

theorem activeBranch_of_branch? {dialogue : Dialogue} {branch : Branch}
    (found : dialogue.branch? dialogue.active = some branch) : dialogue.activeBranch = .ok branch :=
  activeBranch_eq_ok_iff.mpr found

theorem mem_of_activeBranch {dialogue : Dialogue} (active : dialogue.activeBranch = .ok branch) :
    branch ∈ dialogue.branches ∧ branch.header = dialogue.active :=
  mem_of_branch? (activeBranch_eq_ok_iff.mp active)

theorem exists_branch?_iff (dialogue : Dialogue) (header : String) :
    (∃ branch, dialogue.branch? header = some branch) ↔
      header ∈ dialogue.branches.map Branch.header := by
  rw [← Option.isSome_iff_exists, branch?_eq_find?, List.find?_isSome, List.mem_map]
  simp

theorem branch?_eq_none_iff (dialogue : Dialogue) (header : String) :
    dialogue.branch? header = none ↔ header ∉ dialogue.branches.map Branch.header := by
  rw [← exists_branch?_iff, ← Option.isSome_iff_exists, Option.not_isSome_iff_eq_none]

end Dialogue

end Parley
