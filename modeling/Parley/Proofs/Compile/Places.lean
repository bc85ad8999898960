import Parley.Proofs.Compile.Layout
import Parley.Proofs.Source.Places

/-! Where failures point. Whatever stage notices a fault, and whatever it has dropped of the source by then,
what it reports is a character of the source its author wrote, at the line and column where it stands there. -/

namespace Parley

/-- A reading of marks that all have a property can only fail at one that has it. -/
theorem Alike.marked {holds : Mark → Prop} {outcome : Except Failure α} {failure : Failure} {mark : Mark}
    (alike : Alike (fun mark other => mark = other ∧ holds mark) good outcome outcome)
    (failed : outcome = .error failure) (marked : failure.mark = some mark) : holds mark := by
  subst failed
  cases alike with
  | error cause marks =>
    cases marks with
    | none => cases marked
    | some together =>
      cases marked
      exact together.2

theorem Source.mem_of_checkBalance_error {marks : List Mark} {failure : Failure} {mark : Mark}
    (failed : checkBalance marks = .error failure) (marked : failure.mark = some mark) : mark ∈ marks := by
  have together : List.Forall₂ (fun mark other => mark = other ∧ mark ∈ marks) marks marks :=
    List.forall₂_same.mpr fun _ member => ⟨rfl, member⟩
  exact (checkBalance_alike (fun _ _ same => congrArg Mark.char same.1) together).marked failed marked

/-- A failed compilation points into the stripped text, whichever stage failed. -/
theorem mem_strip_of_compile_error {options : Options} {source : String} {failure : Failure} {mark : Mark}
    (failed : compile options source = .error failure) (marked : failure.mark = some mark) :
    mark ∈ Source.strip source.toList := by
  have together : List.Forall₂ (fun mark other => mark = other ∧ mark ∈ Source.strip source.toList)
      (Source.strip source.toList) (Source.strip source.toList) :=
    List.forall₂_same.mpr fun _ member => ⟨rfl, member⟩
  exact (compile_alike (fun _ _ same => congrArg Mark.char same.1) together options).marked failed marked

namespace Failure

def index? (failure : Failure) : Option Nat := failure.mark.map fun mark => mark.place.index

def unexpected? (failure : Failure) : Option Char := failure.mark.map Mark.char

def location? (failure : Failure) : Option (Nat × Nat) :=
  failure.mark.map fun mark => (mark.place.line, mark.place.column)

/-- A failure that names an index names the character that stands there, and the line and column it stands
at. A failure that names none says nothing of any place. -/
structure PointsInto (text : List Char) (failure : Failure) : Prop where
  pointed : ∀ index, failure.index? = some index →
    index < text.length ∧
      (∃ c, failure.unexpected? = some c ∧ text[index]? = some c) ∧
      failure.location? =
        some (1 + (text.take index).count '\n', 1 + ((text.take index).rtakeWhile (· ≠ '\n')).length)
  unpointed : failure.index? = none → failure.unexpected? = none ∧ failure.location? = none

theorem pointsInto_of_marks {text : List Char} {failure : Failure}
    (stands : ∀ mark, failure.mark = some mark → mark.StandsIn text) : failure.PointsInto text := by
  obtain ⟨cause, marked⟩ := failure
  cases marked with
  | none => exact ⟨fun _ pointed => (nomatch pointed), fun _ => ⟨rfl, rfl⟩⟩
  | some mark =>
    have there := stands mark rfl
    refine ⟨?_, fun unpointed => (nomatch unpointed)⟩
    rintro _ ⟨⟩
    refine ⟨there.within, ⟨mark.char, rfl, there.char⟩, ?_⟩
    rw [← there.line, ← there.column]
    rfl

end Failure

/-- Error positions are true: a failure of the compiler or of the balance alone that names a place names one
of the source as it was written, and what stands there. -/
theorem failures_pointInto (options : Options) (source : String) :
    (∀ failure, compile options source = .error failure → failure.PointsInto source.toList) ∧
    ∀ failure, Source.checkBalance (Source.locate source.toList) = .error failure →
      failure.PointsInto source.toList := by
  constructor
  · intro failure failed
    refine Failure.pointsInto_of_marks fun mark marked => Source.standsIn_of_mem_locate ?_
    exact (Layout.stripFrom_sublist _ _).subset (mem_strip_of_compile_error failed marked)
  · intro failure failed
    refine Failure.pointsInto_of_marks fun mark marked => Source.standsIn_of_mem_locate ?_
    exact Source.mem_of_checkBalance_error failed marked

/-- A list closed in the place of a branch, over three lines. -/
def unclosedPage : String := "[T]\n\x7b\n  )"

/-- The stray text of `spacedPage` is noticed at the brace behind it, on the third line; the stray closer of
`unclosedPage` stands two blanks into its own. -/
theorem failures_pointInto_lines :
    (∃ failure, compile (.ofNames [] false) spacedPage = .error failure ∧ failure.index? = some 7 ∧
      failure.unexpected? = some '\x7b' ∧ failure.location? = some (3, 1) ∧
      failure.PointsInto spacedPage.toList) ∧
    ∃ failure, Source.checkBalance (Source.locate unclosedPage.toList) = .error failure ∧
      failure.index? = some 8 ∧ failure.unexpected? = some ')' ∧ failure.location? = some (3, 3) ∧
      failure.PointsInto unclosedPage.toList := by
  refine ⟨⟨⟨.draft (.strayText "y"), some ⟨'\x7b', ⟨7, 3, 1⟩⟩⟩, rfl, rfl, rfl, rfl, ?_⟩,
    ⟨.syntactic (.strayCloser ')'), some ⟨')', ⟨8, 3, 3⟩⟩⟩, rfl, rfl, rfl, rfl, ?_⟩
  · exact (failures_pointInto (.ofNames [] false) spacedPage).1 _ rfl
  · exact (failures_pointInto (.ofNames [] false) unclosedPage).2 _ rfl

end Parley
