import Parley.Compile
import Parley.Proofs.Page.Completeness
import Parley.Proofs.Page.Soundness

namespace Parley

/-- References are only asked for by strict options. -/
def Options.Clear (options : Options) (dialogue : Dialogue) : Prop :=
  options.strict = true → dialogue.checkReferences = .ok ()

theorem Options.clear_ok_iff (options : Options) (dialogue found : Dialogue) :
    (do if options.strict then dialogue.checkReferences
        return dialogue : Except Failure Dialogue) = .ok found ↔
      options.Clear dialogue ∧ dialogue = found := by
  cases strict : options.strict with
  | false => simp [Clear, strict]
  | true =>
    cases checked : dialogue.checkReferences with
    | error failure => simp [Clear, strict, checked]
    | ok _ => simp [Clear, strict, checked]

/-- A source compiles to a dialogue exactly when it is a page that spells the dialogue, and the options ask
for nothing more. -/
theorem compile_ok_iff (options : Options) (source : String) (dialogue : Dialogue) :
    compile options source = .ok dialogue ↔
      options.check = .ok () ∧
        (∃ page : Page options,
          page.text = Source.text (Source.strip source.toList) ∧ page.dialogue = dialogue) ∧
        options.Clear dialogue := by
  constructor
  · intro compiled
    obtain ⟨_, checked, compiled⟩ := bind_ok compiled
    obtain ⟨marks, normal, compiled⟩ := bind_ok compiled
    obtain ⟨counts, counted, compiled⟩ := bind_ok compiled
    obtain ⟨found, built, compiled⟩ := bind_ok compiled
    obtain ⟨clear, rfl⟩ := (options.clear_ok_iff _ _).mp compiled
    obtain ⟨closes, rfl⟩ := (Source.normalize_ok_iff _ _).mp normal
    exact ⟨checked, page_of_build closes built, clear⟩
  · rintro ⟨checked, ⟨page, same, rfl⟩, clear⟩
    obtain ⟨closes, counts, counted, built⟩ := page.build same
    have normal := (Source.normalize_ok_iff source.toList _).mpr ⟨closes, rfl⟩
    have finished := (options.clear_ok_iff page.dialogue page.dialogue).mpr ⟨clear, rfl⟩
    simpa [compile, checked, normal, counted, built] using finished

end Parley
