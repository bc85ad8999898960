import Parley.Proofs.Source.Grammar
import Parley.Proofs.Source.Open

/-! Where the balance of a source is lost. A fault stands at the first character that no accepted text has
after what stands before it, or at the opener of what the end of the text leaves open. -/

namespace Parley

namespace Source

theorem split_of_locateFrom {place : Place} {source : List Char} {before after : List Mark} {mark : Mark}
    (same : locateFrom place source = before ++ mark :: after) :
    ∃ front rest, source = front ++ mark.char :: rest ∧ before = locateFrom place front ∧
      mark.place.index = place.index + front.length := by
  induction before generalizing place source with
  | nil =>
    cases source with
    | nil => cases same
    | cons c rest =>
      obtain ⟨rfl, rfl⟩ := List.cons.inj same
      exact ⟨[], rest, rfl, rfl, rfl⟩
  | cons first before ih =>
    cases source with
    | nil => cases same
    | cons c rest =>
      obtain ⟨rfl, later⟩ := List.cons.inj same
      obtain ⟨front, rest, rfl, rfl, here⟩ := ih later
      refine ⟨c :: front, rest, rfl, rfl, ?_⟩
      rw [here, Place.index_after, List.length_cons]
      omega

/-- A character that nothing accepted has behind `front`, and the code that it is reported with. -/
structure Misplaced (front : List Char) (c : Char) (code : String) : Prop where
  viable : Viable front
  wrong : ¬Viable (front ++ [c])
  reported : code ∈ ["QDL_SYNTAX_NESTED", "QDL_SYNTAX_UNEXPECTED", "QDL_SYNTAX_UNBALANCED"]
  unbalanced : code = "QDL_SYNTAX_UNBALANCED" ↔ ∃ region : Region, c = region.closer
  reopened : code = "QDL_SYNTAX_NESTED" ↔
    ∃ region : Region, c = region.opener ∧ ∃ index, OpenAt front region index

/-- A text that has yet to end, and where what is to be ended first began. -/
structure Unfinished (front : List Char) (index : Nat) : Prop where
  viable : Viable front
  quoted : EndsQuoted front → LastQuoteAt front index
  unquoted : ¬EndsQuoted front → ∃ region, OpenAt front region index ∧
    ∀ other place, OpenAt front other place → index ≤ place

end Source

namespace Balance

variable {balance : Balance} {front : List Char} {failure : Failure}

/-- What may follow a text that has been read is what completes all that is open there. -/
theorem balanced_append_iff {place : Place}
    (reached : (Source.locateFrom place front).foldlM read start = .ok balance) (rest : List Char) :
    Source.Balanced none false (front ++ rest) ↔
      Source.Balanced balance.nesting.inner balance.quote.isSome rest := by
  have whole := foldlM_read_iff (Source.locateFrom place front ++ Source.locate rest) start
  have later := foldlM_read_iff (Source.locate rest) balance
  rw [List.foldlM_append, reached] at whole
  rw [Source.text_locate] at later
  have spelled : Source.text (Source.locateFrom place front ++ Source.locate rest) = front ++ rest := by
    rw [Source.text, List.map_append, ← Source.text, ← Source.text, Source.text_locateFrom,
      Source.text_locate]
  rw [spelled] at whole
  exact whole.symm.trans later

theorem viable_of_reached {place : Place}
    (reached : (Source.locateFrom place front).foldlM read start = .ok balance) : Source.Viable front := by
  obtain ⟨rest, closes⟩ := Source.exists_balanced balance.nesting.inner balance.quote.isSome
  refine ⟨rest, ?_⟩
  rw [← Source.balanced_iff_nested, balanced_append_iff reached]
  exact closes

/-- A character is refused only outside strings, and only where no region lets it stand. -/
theorem read_error {mark : Mark} (refused : balance.read mark = .error failure) :
    mark.char ≠ '"' ∧ balance.quote = none ∧
      ∃ fault, balance.nesting.read mark = .error fault ∧ failure = ⟨.syntactic fault, some mark⟩ := by
  unfold read at refused
  split at refused
  · cases refused
  · rename_i unquoted
    split at refused
    · cases refused
    · rename_i without
      split at refused
      · cases refused
      · rename_i fault stopped
        cases refused
        exact ⟨unquoted, by simpa using without, fault, stopped, rfl⟩

theorem not_viable_of_refused {place : Place} {mark : Mark}
    (reached : (Source.locateFrom place front).foldlM read start = .ok balance)
    (refused : balance.read mark = .error failure) : ¬Source.Viable (front ++ [mark.char]) := by
  rintro ⟨rest, nested⟩
  obtain ⟨unquoted, without, fault, stopped, _⟩ := read_error refused
  rw [← Source.balanced_iff_nested, List.append_assoc, balanced_append_iff reached, without] at nested
  obtain ⟨after, turn, _⟩ := (Source.balanced_outside unquoted).mp nested
  obtain ⟨next, taken, _⟩ := Nesting.read_of_turn turn
  rw [stopped] at taken
  cases taken

end Balance

namespace Nesting

/-- What a refused character is reported as. -/
theorem read_error_cases {nesting : Nesting} {mark : Mark} (refused : nesting.read mark = .error fault) :
    (∃ region : Region, mark.char = region.opener ∧
      fault = if nesting.isOpen region then .reopened mark.char else .misplaced mark.char) ∨
    (∃ region : Region, mark.char = region.closer ∧ fault = .strayCloser mark.char) ∨
    mark.char = ';' ∧ fault = .straySeparator := by
  unfold read at refused
  split at refused
  · rename_i region opener
    split at refused
    · cases refused
    · cases refused
      exact .inl ⟨region, Region.eq_opener_of_ofOpener? opener, rfl⟩
  · rename_i region _ closer
    split at refused
    · cases refused
    · cases refused
      exact .inr (.inl ⟨region, Region.eq_closer_of_ofCloser? closer, rfl⟩)
  · split at refused
    · rename_i separator
      cases refused
      exact .inr (.inr ⟨by simp_all, rfl⟩)
    · cases refused

/-- A closer is stray, an opener of what is open opens again, and all else is not expected. -/
theorem code_of_read_error {nesting : Nesting} {mark : Mark} (refused : nesting.read mark = .error fault) :
    fault.code ∈ ["QDL_SYNTAX_NESTED", "QDL_SYNTAX_UNEXPECTED", "QDL_SYNTAX_UNBALANCED"] ∧
      (fault.code = "QDL_SYNTAX_UNBALANCED" ↔ ∃ region : Region, mark.char = region.closer) ∧
      (fault.code = "QDL_SYNTAX_NESTED" ↔
        ∃ region : Region, mark.char = region.opener ∧ nesting.isOpen region = true) := by
  rcases read_error_cases refused with ⟨region, opener, rfl⟩ | ⟨region, closer, rfl⟩ | ⟨separator, rfl⟩
  · simp only [opener, Region.opener_inj, Region.opener_ne_closer, exists_eq_left']
    cases nesting.isOpen region <;> simp [SyntaxFault.code]
  · simp only [closer, Region.closer_inj, Ne.symm (Region.opener_ne_closer _ _)]
    simp [SyntaxFault.code]
  · have noOpener : ∀ region : Region, ';' ≠ region.opener := by
      intro region
      cases region <;> decide
    have noCloser : ∀ region : Region, ';' ≠ region.closer := by
      intro region
      cases region <;> decide
    simp [separator, SyntaxFault.code, noOpener, noCloser]

end Nesting

namespace Balance

variable {balance : Balance} {front : List Char} {failure : Failure} {place : Place}

/-- The character that stops a reading is misplaced behind what was read. -/
theorem Describes.misplaced {mark : Mark} (describes : balance.Describes front)
    (reached : (Source.locateFrom place front).foldlM Balance.read start = .ok balance)
    (refused : balance.read mark = .error failure) :
    failure.mark = some mark ∧ Source.Misplaced front mark.char failure.code := by
  obtain ⟨_, _, fault, stopped, rfl⟩ := read_error refused
  obtain ⟨regions, spans, opened⟩ := describes.regions
  obtain ⟨reported, unbalanced, reopened⟩ := Nesting.code_of_read_error stopped
  refine ⟨rfl, viable_of_reached reached, not_viable_of_refused reached refused, reported, unbalanced, ?_⟩
  simp only [opened, ← spans.isOpen_iff]
  exact reopened

/-- What is reported at the end is the string that is open there, or else the first region. -/
theorem Describes.unfinished (describes : balance.Describes front)
    (reached : (Source.locateFrom place front).foldlM Balance.read start = .ok balance)
    (refused : balance.finish = .error failure) :
    ∃ mark, failure.mark = some mark ∧ failure.code = "QDL_SYNTAX_UNTERMINATED" ∧
      Source.Unfinished front mark.place.index := by
  have viable := viable_of_reached reached
  unfold finish at refused
  split at refused
  · rename_i quote within
    cases refused
    have quoted : Source.EndsQuoted front := by simp [← describes.quoted, within]
    exact ⟨quote, rfl, rfl, viable, fun _ => describes.last quote within, fun out => absurd quoted out⟩
  · rename_i opener without first
    cases refused
    have unquoted : ¬Source.EndsQuoted front := by simp [← describes.quoted, without]
    refine ⟨opener, rfl, rfl, viable, fun within => absurd within unquoted, fun _ => ?_⟩
    obtain ⟨regions, spans, opened⟩ := describes.regions
    obtain ⟨region, member, outermost⟩ := spans.outermost? first
    refine ⟨region, (opened _ _).mpr member, ?_⟩
    intro other index otherwise
    exact outermost _ ((opened _ _).mp otherwise)
  · cases refused

end Balance

/-- The balance accepts exactly the texts of the grammar. Anything else is reported at the first character
that no accepted text has there, or, if the text could still go on, at what it leaves open. -/
theorem Source.checkBalance_exact (source : List Char) :
    (checkBalance (locate source) = .ok () ↔ Nested none source) ∧
    ∀ failure, checkBalance (locate source) = .error failure → ∃ mark, failure.mark = some mark ∧
      ((∃ front rest, source = front ++ mark.char :: rest ∧ front.length = mark.place.index ∧
          Misplaced front mark.char failure.code) ∨
        failure.code = "QDL_SYNTAX_UNTERMINATED" ∧ Unfinished source mark.place.index) := by
  refine ⟨?_, ?_⟩
  · rw [checkBalance_ok_iff, text_locate, balanced_iff_nested]
  · intro failure failed
    unfold checkBalance at failed
    cases run : (locate source).foldlM Balance.read Balance.start with
    | ok balance =>
      rw [run] at failed
      have describes := Balance.describes_start.foldlM rfl run
      obtain ⟨mark, marked, code, unfinished⟩ := describes.unfinished run failed
      exact ⟨mark, marked, .inr ⟨code, unfinished⟩⟩
    | error early =>
      rw [run] at failed
      cases failed
      obtain ⟨before, mark, after, balance, split, reached, refused⟩ := exists_of_foldlM_error run
      obtain ⟨front, rest, same, rfl, here⟩ := split_of_locateFrom split
      have describes := Balance.describes_start.foldlM rfl reached
      obtain ⟨marked, misplaced⟩ := describes.misplaced reached refused
      refine ⟨mark, marked, .inl ⟨front, rest, same, ?_, misplaced⟩⟩
      simpa [Place.first] using here.symm

def reopenedSource : List Char := "[T]\x7b\"a\"\"\x7d\"\x7b".toList

/-- A brace in a string closes nothing, so the branch is still open. -/
theorem Source.checkBalance_exact_reopened :
    let failure : Failure := ⟨.syntactic (.reopened '{'), some ⟨'{', ⟨10, 1, 11⟩⟩⟩
    (checkBalance (locate reopenedSource) = .ok () ↔ Nested none reopenedSource) ∧
    checkBalance (locate reopenedSource) = .error failure ∧ ∃ mark, failure.mark = some mark ∧
      ((∃ front rest, reopenedSource = front ++ mark.char :: rest ∧ front.length = mark.place.index ∧
          Misplaced front mark.char failure.code) ∨
        failure.code = "QDL_SYNTAX_UNTERMINATED" ∧ Unfinished reopenedSource mark.place.index) := by
  intro failure
  have failed : checkBalance (locate reopenedSource) = .error failure := by rfl
  exact ⟨(checkBalance_exact reopenedSource).1, failed, (checkBalance_exact reopenedSource).2 failure failed⟩

end Parley
