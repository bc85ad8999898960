import Parley.Proofs.Failing
import Parley.Proofs.Source.Tally

/-! Counting in passes over the whole text: one finds how many branches there are, one fills a table of their
lists, and one fills tables of those sizes with the commands. It comes to what the sections give. -/

namespace Parley

namespace Source

/-- The pass that counts lists: the branch it is in, and the lists of each branch so far. -/
structure ListPass where
  branch : Nat
  table : List Nat
  deriving DecidableEq, Repr

/-- The pass that counts commands: the branch and the list it is in, and the commands of each list so far. -/
structure CommandPass where
  branch : Nat
  list : Nat
  table : Counts
  deriving DecidableEq, Repr

def ListPass.read (pass : ListPass) (c : Char) : Except Failure ListPass :=
  if c = '}' then .ok { pass with branch := pass.branch + 1 }
  else if c = ')' then
    match pass.table[pass.branch]? with
    | none => .error ⟨.count .strayList, none⟩
    | some lists => .ok { pass with table := pass.table.set pass.branch (lists + 1) }
  else .ok pass

def CommandPass.read (pass : CommandPass) (c : Char) : Except Failure CommandPass :=
  if c = '}' then .ok { pass with branch := pass.branch + 1, list := 0 }
  else if c = ')' then .ok { pass with list := pass.list + 1 }
  else if c = ';' then
    match pass.table[pass.branch]? with
    | none => .error ⟨.count .strayCommand, none⟩
    | some row =>
      match row[pass.list]? with
      | none => .error ⟨.count .strayCommand, none⟩
      | some commands =>
        .ok { pass with table := pass.table.set pass.branch (row.set pass.list (commands + 1)) }
  else .ok pass

def countLists (outside : List Char) : Except Failure (List Nat) :=
  (outside.foldlM ListPass.read ⟨0, .replicate (outside.count '}') 0⟩).map ListPass.table

def countCommands (outside : List Char) (lists : List Nat) : Except Failure Counts :=
  (outside.foldlM CommandPass.read ⟨0, 0, lists.map (.replicate · 0)⟩).map CommandPass.table

/-- Counting in passes, each of which reads the whole text. -/
def countByPasses (text : List Char) : Except Failure Counts := do
  let outside := outsideStrings false text
  countCommands outside (← countLists outside)

def added (numbers more : List Nat) : List Nat := numbers.zipWith (· + ·) more

/-- What the pass over lists does from a point on: it adds those of each branch to its place in the table, and
behind the last branch a list has no place. -/
private def AddsLists (outside unclosed : List Char) (closed : List (List Char)) : Prop :=
  ∀ done left : List Nat, left.length = closed.length →
    (outside.foldlM ListPass.read ⟨done.length, done ++ left⟩).map ListPass.table =
      if ')' ∈ unclosed then .error ⟨.count .strayList, none⟩
      else .ok (done ++ added left (closed.map (List.count ')')))

private theorem addsLists_closes {rest unclosed : List Char} {closed : List (List Char)}
    (adds : AddsLists rest unclosed closed) : AddsLists ('}' :: rest) unclosed ([] :: closed) := by
  intro done left sized
  cases left with
  | nil => cases sized
  | cons first left =>
    have later := adds (done ++ [first]) left (Nat.succ.inj sized)
    simpa [ListPass.read, added] using later

private theorem addsLists_behind {c : Char} {rest unclosed : List Char} (other : c ≠ '}')
    (adds : AddsLists rest unclosed []) : AddsLists (c :: rest) (c :: unclosed) [] := by
  intro done left none
  obtain rfl := List.length_eq_zero_iff.mp none
  by_cases list : c = ')'
  · subst list
    simp [ListPass.read, Except.map]
  · have later := adds done [] rfl
    simpa [ListPass.read, other, list, Ne.symm list] using later

private theorem addsLists_inside {c : Char} {rest unclosed piece : List Char} {more : List (List Char)}
    (other : c ≠ '}') (adds : AddsLists rest unclosed (piece :: more)) :
    AddsLists (c :: rest) unclosed ((c :: piece) :: more) := by
  intro done left sized
  cases left with
  | nil => cases sized
  | cons first left =>
    by_cases list : c = ')'
    · subst list
      have later := adds done ((first + 1) :: left) sized
      simpa [ListPass.read, added, Nat.add_assoc, Nat.add_comm 1] using later
    · have later := adds done (first :: left) sized
      simpa [ListPass.read, other, list, Ne.symm list, added] using later

private theorem adds_lists (outside : List Char) :
    AddsLists outside (pieces '}' outside).2 (pieces '}' outside).1 := by
  refine pieces_induction '}' (motive := fun outside closed unclosed => AddsLists outside unclosed closed)
    ?_ (fun _ _ _ => addsLists_closes) (fun _ _ _ => addsLists_behind)
    (fun _ _ _ _ _ => addsLists_inside) outside
  intro done left none
  obtain rfl := List.length_eq_zero_iff.mp none
  simp [added, Except.map]

/-- What the pass over commands does from a point on: behind the last branch a command has no place, and in a branch
the lists that have been passed take no more. -/
private def AddsCommands (outside : List Char) (unclosed : List Char) : List (List Char) → Prop
  | [] => ∀ (list : Nat) (table : Counts),
    (outside.foldlM CommandPass.read ⟨table.length, list, table⟩).map CommandPass.table =
      if ';' ∈ unclosed then .error ⟨.count .strayCommand, none⟩ else .ok table
  | piece :: more => ∀ (done : Counts) (passed left : List Nat) (later : Counts),
    left.length = (row piece).length →
    later.map List.length = more.map (fun piece => (row piece).length) →
      (outside.foldlM CommandPass.read
          ⟨done.length, passed.length, done ++ (passed ++ left) :: later⟩).map CommandPass.table =
        if ';' ∈ unclosed ∨ ∃ branch ∈ piece :: more, ';' ∈ (pieces ')' branch).2 then
          .error ⟨.count .strayCommand, none⟩
        else .ok (done ++ (passed ++ added left (row piece)) :: later.zipWith added (more.map row))

/-- Inside a branch, a list moves on in its row, and a command needs a list that is still to come. -/
private theorem addsCommands_inside {c : Char} {rest unclosed piece : List Char} {more : List (List Char)}
    (other : c ≠ '}') (adds : AddsCommands rest unclosed (piece :: more)) :
    AddsCommands (c :: rest) unclosed ((c :: piece) :: more) := by
  intro done passed left later sized shaped
  rw [row_cons] at sized ⊢
  by_cases closes : c = ')'
  · subst closes
    cases left with
    | nil => cases sized
    | cons first left =>
      have next := adds done (passed ++ [first]) left later (Nat.succ.inj sized) shaped
      simpa [CommandPass.read, stray_list, Counts.precedeRow, added] using next
  by_cases command : c = ';'
  · subst command
    cases rows : row piece with
    | nil =>
      rw [rows] at sized
      obtain rfl := List.length_eq_zero_iff.mp sized
      simp [CommandPass.read, stray_command, rows, Except.map]
    | cons counted tail =>
      rw [rows] at sized
      cases left with
      | nil => cases sized
      | cons first left =>
        have next := adds done passed ((first + 1) :: left) later (by rw [rows]; exact sized) shaped
        simpa [CommandPass.read, stray_command, rows, Counts.precedeRow, added, Nat.add_assoc,
          Nat.add_comm 1] using next
  · rw [Counts.precedeRow_other closes command] at sized ⊢
    have next := adds done passed left later sized shaped
    simpa [CommandPass.read, other, closes, command, stray_other closes command] using next

private theorem addsCommands_behind {c : Char} {rest unclosed : List Char} (other : c ≠ '}')
    (adds : AddsCommands rest unclosed []) : AddsCommands (c :: rest) (c :: unclosed) [] := by
  intro list table
  by_cases closes : c = ')'
  · have behind := adds (list + 1) table
    simpa [CommandPass.read, closes] using behind
  by_cases command : c = ';'
  · simp [CommandPass.read, command, Except.map]
  · have behind := adds list table
    simpa [CommandPass.read, other, closes, command, Ne.symm command] using behind

/-- The end of a branch has filled its row. -/
private theorem addsCommands_closes {rest unclosed : List Char} {closed : List (List Char)}
    (adds : AddsCommands rest unclosed closed) : AddsCommands ('}' :: rest) unclosed ([] :: closed) := by
  intro done passed left later sized shaped
  obtain rfl := List.length_eq_zero_iff.mp sized
  cases closed with
  | nil =>
    obtain rfl := List.map_eq_nil_iff.mp shaped
    have behind := adds 0 (done ++ [passed])
    simpa [CommandPass.read, pieces, row, added] using behind
  | cons piece more =>
    obtain ⟨second, later, rfl, sized, shaped⟩ := List.map_eq_cons_iff.mp shaped
    have next := adds (done ++ [passed]) [] second later sized shaped
    simpa [CommandPass.read, pieces, row, added] using next

private theorem adds_commands (outside : List Char) :
    AddsCommands outside (pieces '}' outside).2 (pieces '}' outside).1 :=
  pieces_induction '}' (motive := fun outside closed unclosed => AddsCommands outside unclosed closed)
    (fun _ _ => rfl) (fun _ _ _ => addsCommands_closes) (fun _ _ _ => addsCommands_behind)
    (fun _ _ _ _ _ => addsCommands_inside) outside

theorem length_row (branch : List Char) : (row branch).length = branch.count ')' := by
  rw [row, List.length_map, length_pieces]

private theorem added_zero (numbers : List Nat) : added (.replicate numbers.length 0) numbers = numbers := by
  induction numbers with
  | nil => rfl
  | cons first rest ih => simpa [added, List.replicate_succ] using ih

/-- Tables of the size that was counted end up as what was counted. -/
private theorem zipWith_added_zero (branches : List (List Char)) :
    ((branches.map (List.count ')')).map (List.replicate · 0)).zipWith added (branches.map row) =
      branches.map row := by
  rw [List.map_map, List.zipWith_map, List.zipWith_self]
  refine List.map_congr_left fun branch _ => ?_
  rw [Function.comp_apply, ← length_row, added_zero]

theorem countLists_eq (outside : List Char) :
    countLists outside =
      if ')' ∈ (pieces '}' outside).2 then .error ⟨.count .strayList, none⟩
      else .ok ((pieces '}' outside).1.map (List.count ')')) := by
  have sized : outside.count '}' = ((pieces '}' outside).1.map (List.count ')')).length := by
    rw [List.length_map, length_pieces]
  have lists := adds_lists outside [] (.replicate (outside.count '}') 0)
    (by rw [List.length_replicate, length_pieces])
  rw [List.nil_append, List.nil_append, sized, added_zero] at lists
  rw [countLists, sized]
  exact lists

theorem countCommands_eq (outside : List Char) :
    countCommands outside ((pieces '}' outside).1.map (List.count ')')) =
      if ';' ∈ (pieces '}' outside).2 ∨ ∃ branch ∈ (pieces '}' outside).1, ';' ∈ (pieces ')' branch).2 then
        .error ⟨.count .strayCommand, none⟩
      else .ok ((pieces '}' outside).1.map row) := by
  have commands := adds_commands outside
  have tables := zipWith_added_zero (pieces '}' outside).1
  rw [countCommands]
  cases closed : (pieces '}' outside).1 with
  | nil =>
    rw [closed] at commands
    simpa using commands 0 []
  | cons piece more =>
    rw [closed] at commands tables
    have sized : (List.replicate (piece.count ')') 0).length = (row piece).length := by
      rw [List.length_replicate, length_row]
    have shaped : ((more.map (List.count ')')).map (List.replicate · 0)).map List.length =
        more.map (fun piece => (row piece).length) := by
      simp [length_row, Function.comp_def]
    have counted := commands [] [] _ _ sized shaped
    rw [← tables]
    exact counted

/-- Passes with tables come to the same counts, and to the same failures. -/
theorem countByPasses_eq (text : List Char) : countByPasses text = count text := by
  rw [countByPasses, countLists_eq, count_eq]
  split
  · rfl
  · exact countCommands_eq _

end Source

end Parley
