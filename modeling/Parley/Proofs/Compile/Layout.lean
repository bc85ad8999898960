import Parley.Compile
import Parley.Proofs.Compile.Simulation
import Parley.Proofs.Source.Layout

namespace Parley

namespace Nesting

/-- The same regions are open, and marks that belong together opened them. -/
inductive Matches (related : Mark → Mark → Prop) : Nesting → Nesting → Prop
  | outside : Matches related outside outside
  | title (together : related mark other) : Matches related (title mark) (title other)
  | branch (together : related mark other) : Matches related (branch mark) (branch other)
  | commands (together : related mark other) : Matches related (commands mark) (commands other)

variable {related : Mark → Mark → Prop} {nesting nesting' : Nesting} {mark other : Mark}

theorem Matches.isOpen_eq (matched : nesting.Matches related nesting') (region : Region) :
    nesting.isOpen region = nesting'.isOpen region := by
  cases matched <;> cases region <;> rfl

theorem Matches.enter (matched : nesting.Matches related nesting') (together : related mark other)
    (region : Region) :
    Option.Rel (Matches related) (nesting.enter? mark region) (nesting'.enter? other region) := by
  cases matched <;> cases region
  case outside.title => exact .some (.title together)
  case outside.branch => exact .some (.branch together)
  case branch.commands opener => exact .some (.commands opener)
  all_goals exact .none

theorem Matches.leave (matched : nesting.Matches related nesting') (region : Region) :
    Option.Rel (Matches related) (nesting.leave? region) (nesting'.leave? region) := by
  cases matched <;> cases region
  case title.title => exact .some .outside
  case branch.branch => exact .some .outside
  case commands.commands opener => exact .some (.branch opener)
  all_goals exact .none

theorem Matches.outermost (matched : nesting.Matches related nesting') :
    Option.Rel related nesting.outermost? nesting'.outermost? := by
  cases matched with
  | outside => exact .none
  | title together => exact .some together
  | branch together => exact .some together
  | commands together => exact .some together

/-- A character goes through in both nestings, or is refused in both for one fault. -/
theorem Matches.read (matched : nesting.Matches related nesting') (together : related mark other)
    (same : mark.char = other.char) :
    (∃ next next', nesting.read mark = .ok next ∧ nesting'.read other = .ok next' ∧
      next.Matches related next') ∨
    ∃ fault, nesting.read mark = .error fault ∧ nesting'.read other = .error fault := by
  unfold Nesting.read
  rw [same]
  split
  · rename_i region _
    have entered := matched.enter together region
    rw [matched.isOpen_eq]
    generalize nesting.enter? mark region = inner, nesting'.enter? other region = inner' at entered
    cases entered with
    | some inside => exact .inl ⟨_, _, rfl, rfl, inside⟩
    | none => exact .inr ⟨_, rfl, rfl⟩
  · rename_i region _ _
    have exited := matched.leave region
    generalize nesting.leave? region = outer, nesting'.leave? region = outer' at exited
    cases exited with
    | some around => exact .inl ⟨_, _, rfl, rfl, around⟩
    | none => exact .inr ⟨_, rfl, rfl⟩
  · rw [matched.isOpen_eq]
    split
    · exact .inr ⟨_, rfl, rfl⟩
    · exact .inl ⟨_, _, rfl, rfl, matched⟩

end Nesting

namespace Balance

/-- The same string and regions are open, and marks that belong together opened them. -/
structure Matches (related : Mark → Mark → Prop) (balance balance' : Balance) : Prop where
  nesting : balance.nesting.Matches related balance'.nesting
  quote : Option.Rel related balance.quote balance'.quote

variable {related : Mark → Mark → Prop} {balance balance' : Balance} {mark other : Mark}

theorem Matches.read (matched : balance.Matches related balance') (together : related mark other)
    (same : mark.char = other.char) :
    Alike related (Matches related) (balance.read mark) (balance'.read other) := by
  obtain ⟨nesting, quote⟩ := balance
  obtain ⟨nesting', quote'⟩ := balance'
  obtain ⟨regions, string⟩ := matched
  unfold Balance.read
  rw [same]
  split
  · refine .ok ⟨regions, ?_⟩
    cases string with
    | none => exact .some together
    | some _ => exact .none
  · cases string with
    | some opener => exact .ok ⟨regions, .some opener⟩
    | none =>
      dsimp only
      rcases regions.read together same with ⟨_, _, read, read', inner⟩ | ⟨fault, refused, refused'⟩
      · rw [read, read']
        exact .ok ⟨inner, .none⟩
      · rw [refused, refused']
        exact .error _ (.some together)

theorem Matches.finish (same : ∀ mark other, related mark other → mark.char = other.char)
    (matched : balance.Matches related balance') :
    Alike related Eq balance.finish balance'.finish := by
  obtain ⟨regions, string⟩ := matched
  have first := regions.outermost
  unfold Balance.finish
  generalize balance.quote = quote, balance'.quote = quote' at string
  generalize balance.nesting.outermost? = opener, balance'.nesting.outermost? = opener' at first
  cases string with
  | some together => exact .error _ (.some together)
  | none =>
    cases first with
    | none => exact .ok rfl
    | @some mark other together =>
      dsimp only
      rw [same mark other together]
      exact .error _ (.some together)

end Balance

variable {related : Mark → Mark → Prop} {marks others : List Mark}

theorem Source.checkBalance_alike (same : ∀ mark other, related mark other → mark.char = other.char)
    (together : List.Forall₂ related marks others) :
    Alike related Eq (checkBalance marks) (checkBalance others) := by
  have started : Balance.start.Matches related Balance.start := ⟨.outside, .none⟩
  have read := Alike.foldlM (fun mark other _ _ belong (matched : Balance.Matches related _ _) =>
    matched.read belong (same mark other belong)) together started
  exact read.bind fun _ _ matched => matched.finish same

theorem Source.text_eq_of_forall₂ (same : ∀ mark other, related mark other → mark.char = other.char)
    (together : List.Forall₂ related marks others) : text marks = text others := by
  induction together with
  | nil => rfl
  | cons belong _ ih =>
    rw [text, text, List.map_cons, List.map_cons, same _ _ belong]
    exact congrArg _ ih

theorem Options.check_unmarked {options : Options} {failure : Failure}
    (failed : options.check = .error failure) : failure.mark = none := by
  unfold check at failed
  split at failed
  · cases failed
    rfl
  · cases failed

theorem Source.count_unmarked {text : List Char} {failure : Failure} (failed : count text = .error failure) :
    failure.mark = none := by
  unfold count at failed
  dsimp only at failed
  split at failed
  · cases failed
    rfl
  · split at failed
    · cases failed
      rfl
    · cases failed

theorem Dialogue.checkReferences_unmarked {dialogue : Dialogue} {failure : Failure}
    (failed : dialogue.checkReferences = .error failure) : failure.mark = none := by
  unfold checkReferences at failed
  split at failed
  · cases failed
    rfl
  · cases failed

theorem compile_eq (options : Options) (source : String) :
    compile options source = do
      options.check
      Source.checkBalance (Source.strip source.toList)
      let counts ← Source.count (Source.text (Source.strip source.toList))
      let dialogue ← build options counts (Source.strip source.toList)
      if options.strict then dialogue.checkReferences
      return dialogue := by
  rw [compile, Source.normalize_eq]
  simp only [bind_assoc, pure_bind]

theorem compile_alike {source source' : String}
    (same : ∀ mark other, related mark other → mark.char = other.char)
    (together : List.Forall₂ related (Source.strip source.toList) (Source.strip source'.toList))
    (options : Options) : Alike related Eq (compile options source) (compile options source') := by
  rw [compile_eq, compile_eq, ← Source.text_eq_of_forall₂ same together]
  have checked : Alike related Eq options.check options.check :=
    .refl_of_unmarked fun _ => Options.check_unmarked
  have counted : Alike related Eq (Source.count (Source.text (Source.strip source.toList)))
      (Source.count (Source.text (Source.strip source.toList))) :=
    .refl_of_unmarked fun _ => Source.count_unmarked
  refine checked.bind fun _ _ _ => (Source.checkBalance_alike same together).bind fun _ _ _ =>
    counted.bind ?_
  rintro counts _ rfl
  rw [build_eq_draft, build_eq_draft]
  refine (Draft.build_alike same together options counts).bind ?_
  rintro dialogue _ rfl
  cases options.strict with
  | false => exact .ok rfl
  | true =>
    have referred : Alike related Eq dialogue.checkReferences dialogue.checkReferences :=
      .refl_of_unmarked fun _ => Dialogue.checkReferences_unmarked
    exact referred.bind fun _ _ _ => .ok rfl

/-- Marks that stand at one position of two texts. -/
def StandTogether (marks others : List Mark) (mark other : Mark) : Prop :=
  mark.char = other.char ∧
    ∃ position : Nat, marks[position]? = some mark ∧ others[position]? = some other

theorem forall₂_standTogether (same : Source.text marks = Source.text others) :
    List.Forall₂ (StandTogether marks others) marks others := by
  have lengths : marks.length = others.length := by
    simpa only [Source.text, List.length_map] using congrArg List.length same
  refine List.forall₂_iff_zip.mpr ⟨lengths, fun {mark other} paired => ?_⟩
  obtain ⟨position, found⟩ := List.mem_iff_getElem?.mp paired
  obtain ⟨here, there⟩ := List.getElem?_zip_eq_some.mp found
  refine ⟨?_, position, here, there⟩
  have chars := congrArg (·[position]?) same
  simpa only [Source.text, List.getElem?_map, here, there, Option.map_some, Option.some.injEq] using chars

/-- What layout a source has makes no difference: sources with one stripped text compile to one dialogue, or
fail with one cause, and then at one position of the stripped text if at any. A source without its layout is
such a source. -/
theorem compile_layout {source source' : String}
    (same : Source.text (Source.strip source.toList) = Source.text (Source.strip source'.toList))
    (options : Options) :
    Alike (StandTogether (Source.strip source.toList) (Source.strip source'.toList)) Eq
      (compile options source) (compile options source') ∧
    let bare := String.ofList (Source.text (Source.strip source.toList))
    Alike (StandTogether (Source.strip source.toList) (Source.strip bare.toList)) Eq
      (compile options source) (compile options bare) := by
  refine ⟨compile_alike (fun _ _ belong => belong.1) (forall₂_standTogether same) options, ?_⟩
  intro bare
  have stripped : Source.text (Source.strip source.toList) = Source.text (Source.strip bare.toList) := by
    rw [String.toList_ofList, Source.text_strip_text_strip]
  exact compile_alike (fun _ _ belong => belong.1) (forall₂_standTogether stripped) options

/-- A page with text where a branch should open, and the same page over three lines. -/
def strayPage : String := "[T]y\x7b\"a\" \x7d"

def spacedPage : String := "[T]\n y\n\x7b \"a\"\x7d"

theorem compile_layout_spaced :
    compile (.ofNames [] false) strayPage =
      .error ⟨.draft (.strayText "y"), some ⟨'\x7b', ⟨4, 1, 5⟩⟩⟩ ∧
    compile (.ofNames [] false) spacedPage =
      .error ⟨.draft (.strayText "y"), some ⟨'\x7b', ⟨7, 3, 1⟩⟩⟩ ∧
    Source.text (Source.strip strayPage.toList) = Source.text (Source.strip spacedPage.toList) ∧
    Alike (StandTogether (Source.strip strayPage.toList) (Source.strip spacedPage.toList)) Eq
      (compile (.ofNames [] false) strayPage) (compile (.ofNames [] false) spacedPage) := by
  have same : Source.text (Source.strip strayPage.toList) = Source.text (Source.strip spacedPage.toList) := by
    decide
  exact ⟨rfl, rfl, same, (compile_layout same (.ofNames [] false)).1⟩

end Parley
