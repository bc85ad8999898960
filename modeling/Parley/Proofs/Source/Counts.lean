import Parley.Proofs.Source.Passes
import Parley.Proofs.Source.Sections

namespace Parley

namespace Counts

/-- The counts are those of the characters that stand outside strings: each section has a count, each count a
section, and nothing is left out. -/
structure Exact (counts : Counts) (outside : List Char) : Prop where
  branches : counts.branches = outside.count '}'
  lists : ∀ branch number, counts.lists? branch = some number ↔
    ∃ inside, Source.Section '}' outside branch inside ∧ inside.count ')' = number
  noLists : ∀ branch, counts.lists? branch = none ↔ outside.count '}' ≤ branch
  commands : ∀ branch list number, counts.commands? branch list = some number ↔
    ∃ inside own, Source.Section '}' outside branch inside ∧ Source.Section ')' inside list own ∧
      own.count ';' = number
  noCommands : ∀ branch list, counts.commands? branch list = none ↔
    ∀ inside, Source.Section '}' outside branch inside → inside.count ')' ≤ list
  allLists : (counts.map List.length).sum = outside.count ')'
  allCommands : counts.flatten.sum = outside.count ';'

end Counts

namespace Source

/-- Where nothing is left behind the last closer, the pieces hold everything else. -/
theorem sum_count_pieces {closer c : Char} (other : c ≠ closer) {text : List Char}
    (none : c ∉ (pieces closer text).2) : ((pieces closer text).1.map (List.count c)).sum = text.count c := by
  rw [count_pieces other, List.count_eq_zero.mpr none, Nat.add_zero]

/-- Rows of complete sections are exact. -/
theorem Complete.exact {outside : List Char} (complete : Complete (pieces '}' outside)) :
    Counts.Exact ((pieces '}' outside).1.map row) outside where
  branches := by
    rw [Counts.branches, List.length_map, length_pieces]
  lists branch number := by
    simp only [Counts.lists?, section_iff, List.getElem?_map, Option.map_map, Option.map_eq_some_iff,
      Function.comp_apply, length_row]
  noLists branch := by
    rw [Counts.lists?, Option.map_eq_none_iff, List.getElem?_eq_none_iff, List.length_map, length_pieces]
  commands branch list number := by
    simp only [Counts.commands?, section_iff, List.getElem?_map, Option.bind_map, Option.bind_eq_some_iff,
      Function.comp_apply, row, Option.map_eq_some_iff, exists_and_left]
  noCommands branch list := by
    simp only [Counts.commands?, section_iff, List.getElem?_map, Option.bind_map, Option.bind_eq_none_iff,
      Function.comp_apply, List.getElem?_eq_none_iff, length_row]
  allLists := by
    have lengths : List.length ∘ row = List.count ')' := funext length_row
    rw [List.map_map, lengths, sum_count_pieces (by decide) complete.noList]
  allCommands := by
    have sums : ∀ branch ∈ (pieces '}' outside).1, (row branch).sum = branch.count ';' := fun branch member =>
      sum_count_pieces (by decide) (complete.closed branch member)
    have rows : (pieces '}' outside).1.map (List.sum ∘ row) = (pieces '}' outside).1.map (List.count ';') :=
      List.map_congr_left sums
    rw [List.sum_flatten, List.map_map, rows, sum_count_pieces (by decide) complete.noCommand]

theorem count_ok_iff {text : List Char} {counts : Counts} :
    count text = .ok counts ↔
      Complete (pieces '}' (unquoted text)) ∧ (pieces '}' (unquoted text)).1.map row = counts := by
  rw [← outsideStrings_eq_unquoted]
  constructor
  · intro counted
    rw [count_eq] at counted
    split at counted
    · cases counted
    · rename_i noList
      split at counted
      · cases counted
      · rename_i noCommand
        obtain ⟨behind, within⟩ := not_or.mp noCommand
        exact ⟨⟨noList, behind, fun branch member stray => within ⟨branch, member, stray⟩⟩,
          Except.ok.inj counted⟩
  · rintro ⟨complete, rfl⟩
    exact count_of_complete complete

/-- A list outside a branch is noticed before any command. -/
theorem count_error_cases {text : List Char} {failure : Failure} (refused : count text = .error failure) :
    (¬ListsClosed (unquoted text) ∧ failure = ⟨.count .strayList, none⟩) ∨
      (ListsClosed (unquoted text) ∧ failure = ⟨.count .strayCommand, none⟩) := by
  rw [count_eq, outsideStrings_eq_unquoted] at refused
  rw [listsClosed_iff]
  split at refused
  · rename_i stray
    exact .inl ⟨not_not.mpr stray, (Except.error.inj refused).symm⟩
  · rename_i noList
    split at refused
    · exact .inr ⟨noList, (Except.error.inj refused).symm⟩
    · cases refused

theorem not_listsClosed_iff {outside : List Char} :
    ¬ListsClosed outside ↔ ∃ before after, outside = before ++ ')' :: after ∧ '}' ∉ after := by
  simp only [ListsClosed, not_forall, exists_prop]

end Source

/-- On every text, counting in passes comes to what the sections give. A text has counts exactly if every list is
closed and every command is listed, and then they are exact; otherwise one delimiter is blamed, the end of a list
wherever one is not closed. -/
theorem count_exact (text : List Char) :
    let outside := Source.unquoted text
    Source.countByPasses text = Source.count text ∧
    ((∃ counts, Source.count text = .ok counts) ↔
      Source.ListsClosed outside ∧ Source.CommandsListed outside) ∧
    (∀ counts, Source.count text = .ok counts → counts.Exact outside) ∧
    ∀ failure, Source.count text = .error failure →
      failure.code = "QDL_COUNT_OUT_OF_BOUNDS" ∧
      ∃ blamed ∈ [')', ';'], failure.message = s!"'{blamed}' appears after the last branch closes." ∧
        (blamed = ')' ↔ ∃ before after, outside = before ++ ')' :: after ∧ '}' ∉ after) := by
  intro outside
  refine ⟨Source.countByPasses_eq text, ?_, ?_, ?_⟩
  · rw [← Source.complete_iff]
    simp only [Source.count_ok_iff]
    exact ⟨fun ⟨_, complete, _⟩ => complete, fun complete => ⟨_, complete, rfl⟩⟩
  · intro counts counted
    obtain ⟨complete, rfl⟩ := Source.count_ok_iff.mp counted
    exact complete.exact
  · intro failure refused
    simp only [← Source.not_listsClosed_iff]
    rcases Source.count_error_cases refused with ⟨unclosed, rfl⟩ | ⟨closed, rfl⟩
    · exact ⟨rfl, ')', by decide, rfl, by simpa using unclosed⟩
    · exact ⟨rfl, ';', by decide, rfl, by simpa using closed⟩

/-- A text that no writer would leave, but whose lists and commands are all in place. -/
def unevenText : List Char := "x;\"\x7d);\");;)\x7d\x7b)\x7d".toList

theorem count_exact_uneven :
    Source.count unevenText = .ok [[1, 2], [0]] ∧
    Source.ListsClosed (Source.unquoted unevenText) ∧ Source.CommandsListed (Source.unquoted unevenText) ∧
    Counts.Exact [[1, 2], [0]] (Source.unquoted unevenText) ∧
    Source.count ";\x7d)".toList = .error ⟨.count .strayList, none⟩ ∧
    ∃ blamed ∈ [')', ';'], Failure.message ⟨.count .strayList, none⟩ =
        s!"'{blamed}' appears after the last branch closes." ∧ blamed = ')' := by
  have counted : Source.count unevenText = .ok [[1, 2], [0]] := by rfl
  have refused : Source.count ";\x7d)".toList = .error ⟨.count .strayList, none⟩ := by rfl
  obtain ⟨-, accepted, exact, -⟩ := count_exact unevenText
  obtain ⟨lists, commands⟩ := accepted.mp ⟨_, counted⟩
  obtain ⟨-, -, -, blames⟩ := count_exact ";\x7d)".toList
  obtain ⟨_, blamed, known, told, blame⟩ := blames _ refused
  exact ⟨counted, lists, commands, exact _ counted, refused, blamed, known, told,
    blame.mpr ⟨[';', '}'], [], by decide, by decide⟩⟩

end Parley
