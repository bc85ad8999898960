import Parley.Proofs.Source.Balanced

/-! The grammar of strings and regions, and the texts that the balance accepts: they are the same. A text is
accepted from the inside out, while the balance reads it from the left, so the proof goes through texts that
start in the middle of a region. -/

namespace Parley

namespace Region

/-- The region that a region lies in; titles and branches lie on the page itself. -/
def around : Region → Option Region
  | title => none
  | branch => none
  | commands => some branch

theorem Turn.opens (region : Region) : Turn region.around region.opener (some region) := by
  cases region with
  | title => exact .openTitle
  | branch => exact .openBranch
  | commands => exact .openList

theorem Turn.closes (region : Region) : Turn (some region) region.closer region.around := by
  cases region with
  | title => exact .closeTitle
  | branch => exact .closeBranch
  | commands => exact .closeList

end Region

namespace Source

/-- What may stand in a region, or on the page itself: text without delimiters, strings and the regions that
lie there, and in a command list semicolons. -/
inductive Nested : Option Region → List Char → Prop
  | nil : Nested scope []
  | plain (free : isDelimiter c = false) (later : Nested scope rest) : Nested scope (c :: rest)
  | string (closed : '"' ∉ content) (later : Nested scope rest) :
      Nested scope ('"' :: (content ++ '"' :: rest))
  | region {region : Region} (lies : region.around = scope) (inside : Nested (some region) content)
      (later : Nested scope rest) :
      Nested scope (region.opener :: (content ++ region.closer :: rest))
  | separator (later : Nested (some .commands) rest) : Nested (some .commands) (';' :: rest)

/-- Nothing is left open by what may stand in a region. -/
theorem Nested.balanced_append {scope : Option Region} {text rest : List Char}
    (nested : Nested scope text) (closes : Balanced scope false rest) :
    Balanced scope false (text ++ rest) := by
  induction nested generalizing rest with
  | nil => exact closes
  | plain free _ ih => exact (balanced_plain free).mpr (ih closes)
  | @string content scope later closed _ ih =>
    have whole := (balanced_string closed).mpr (ih closes)
    simpa using whole
  | @region content scope later region lies _ _ ihInside ihLater =>
    subst lies
    have shut := ihInside (.outside (.closes region) (ihLater closes))
    have whole := Balanced.outside (.opens region) shut
    simpa using whole
  | separator _ ih => exact .outside .endCommand (ih closes)

/-- A text that starts in a region and closes it, and every region around it. -/
inductive Completes : Option Region → List Char → Prop
  | page (nested : Nested none rest) : Completes none rest
  | region {region : Region} (inside : Nested (some region) content)
      (later : Completes region.around rest) :
      Completes (some region) (content ++ region.closer :: rest)

/-- What may stand in front of what a region holds may stand in front of all the rest. -/
theorem Completes.prepend (item : List Char) (completes : Completes scope rest)
    (extend : ∀ later, Nested scope later → Nested scope (item ++ later)) :
    Completes scope (item ++ rest) := by
  cases completes with
  | page nested => exact .page (extend _ nested)
  | region inside later =>
    rw [← List.append_assoc]
    exact .region (extend _ inside) later

theorem Completes.opens {region : Region} (completes : Completes (some region) rest) :
    Completes region.around (region.opener :: rest) := by
  cases completes with
  | @region content more _ inside later =>
    have whole := later.prepend (region.opener :: (content ++ [region.closer])) ?_
    · simpa using whole
    · intro rest nested
      have extended := Nested.region rfl inside nested
      simpa using extended

/-- A balanced text completes the regions around its start; one that starts inside a string first ends it. -/
theorem Balanced.completes {scope : Option Region} {quoted : Bool} {text : List Char}
    (closes : Balanced scope quoted text) :
    ∃ content rest, '"' ∉ content ∧ Completes scope rest ∧
      text = if quoted then content ++ '"' :: rest else rest := by
  induction closes with
  | done => exact ⟨[], [], List.not_mem_nil, .page .nil, rfl⟩
  | @quote scope quoted rest _ ih =>
    obtain ⟨content, later, closed, completes, spelled⟩ := ih
    cases quoted with
    | true => exact ⟨[], rest, List.not_mem_nil, by simpa [spelled] using completes, rfl⟩
    | false =>
      have spelled : rest = content ++ '"' :: later := spelled
      have whole := completes.prepend ('"' :: (content ++ ['"'])) ?_
      · exact ⟨[], _, List.not_mem_nil, whole, by simp [spelled]⟩
      · intro rest nested
        simpa using Nested.string closed nested
  | @inside c scope rest unquoted _ ih =>
    obtain ⟨content, later, closed, completes, spelled⟩ := ih
    refine ⟨c :: content, later, ?_, completes, by simpa using spelled⟩
    simp [closed, Ne.symm unquoted]
  | @outside scope c after rest turn _ ih =>
    obtain ⟨_, later, _, completes, spelled⟩ := ih
    obtain rfl : rest = later := spelled
    refine ⟨[], c :: rest, List.not_mem_nil, ?_, rfl⟩
    cases turn with
    | openTitle => exact completes.opens
    | openBranch => exact completes.opens
    | openList => exact completes.opens
    | closeTitle => exact .region .nil completes
    | closeBranch => exact .region .nil completes
    | closeList => exact .region .nil completes
    | endCommand => exact completes.prepend [';'] fun _ => .separator
    | plain free => exact completes.prepend [c] fun _ => .plain free

/-- Read from the left or nested from the inside, the texts are the same. -/
theorem balanced_iff_nested (text : List Char) : Balanced none false text ↔ Nested none text := by
  constructor
  · intro closes
    obtain ⟨_, rest, _, completes, rfl⟩ := closes.completes
    cases completes with
    | page nested => exact nested
  · intro nested
    have closes := nested.balanced_append .done
    simpa using closes

/-- Texts that an accepted text may begin with. -/
def Viable (text : List Char) : Prop := ∃ rest, Nested none (text ++ rest)

theorem exists_balanced (scope : Option Region) (quoted : Bool) : ∃ rest, Balanced scope quoted rest := by
  have outside : ∃ rest, Balanced scope false rest := by
    cases scope with
    | none => exact ⟨[], .done⟩
    | some region =>
      cases region with
      | title => exact ⟨[']'], .outside .closeTitle .done⟩
      | branch => exact ⟨['}'], .outside .closeBranch .done⟩
      | commands => exact ⟨[')', '}'], .outside .closeList (.outside .closeBranch .done)⟩
  cases quoted with
  | false => exact outside
  | true =>
    obtain ⟨rest, closes⟩ := outside
    exact ⟨'"' :: rest, .quote closes⟩

end Source

end Parley
