import Mathlib.Data.List.Basic
import Parley.Proofs.Source.Tally

namespace Parley

namespace Source

/-- The characters of a text that stand outside strings: those, quotes apart, with an even number of quotes
before them. -/
def unquoted (text : List Char) : List Char :=
  (text.zipIdx.filter fun (c, position) => c ≠ '"' && (text.take position).count '"' % 2 = 0).map Prod.fst

/-- Whether a character and its position stand outside strings, in a text that starts inside or outside one. -/
private def standsOutside (quoted : Bool) (text : List Char) (entry : Char × Nat) : Bool :=
  entry.1 ≠ '"' && ((text.take entry.2).count '"' + quoted.toNat) % 2 = 0

private theorem standsOutside_cons (quoted : Bool) (c : Char) (rest : List Char) :
    standsOutside quoted (c :: rest) ∘ Prod.map id (· + 1) =
      standsOutside (if c = '"' then !quoted else quoted) rest := by
  funext ⟨d, position⟩
  by_cases quote : c = '"'
  · have parity : ((rest.take position).count '"' + 1 + quoted.toNat) % 2 = 0 ↔
        ((rest.take position).count '"' + (!quoted).toNat) % 2 = 0 := by
      cases quoted
      · simp
      · simp only [Bool.toNat_true, Bool.not_true, Bool.toNat_false]
        omega
    simp [standsOutside, quote, parity]
  · simp [standsOutside, quote]

private theorem outsideStrings_eq_filter (quoted : Bool) (text : List Char) :
    outsideStrings quoted text = (text.zipIdx.filter (standsOutside quoted text)).map Prod.fst := by
  induction text generalizing quoted with
  | nil => rfl
  | cons c rest ih =>
    rw [List.zipIdx_cons', List.filter_cons, List.filter_map, standsOutside_cons, outsideStrings]
    by_cases quote : c = '"'
    · simp [quote, ih, standsOutside]
    · cases quoted
      · simp [quote, ih, standsOutside]
      · simp [quote, ih, standsOutside]

/-- The reading that remembers whether it is inside a string leaves what has an even number of quotes before
it. -/
theorem outsideStrings_eq_unquoted (text : List Char) : outsideStrings false text = unquoted text := by
  rw [outsideStrings_eq_filter]
  rfl

/-- Part `number`, from 0, of the parts that `closer` ends: it begins behind the closer before it, or with the
text. -/
inductive Section (closer : Char) (text : List Char) : Nat → List Char → Prop
  | first {inside back} (split : text = inside ++ closer :: back) (unclosed : closer ∉ inside) :
      Section closer text 0 inside
  | next {front inside back} (split : text = front ++ closer :: (inside ++ closer :: back))
      (unclosed : closer ∉ inside) : Section closer text (front.count closer + 1) inside

variable {closer c : Char} {rest inside : List Char} {number : Nat}

theorem section_closer : Section closer (closer :: rest) number inside ↔
    (number = 0 ∧ inside = []) ∨ ∃ earlier, number = earlier + 1 ∧ Section closer rest earlier inside := by
  constructor
  · rintro (⟨split, unclosed⟩ | @⟨front, _, _, split, unclosed⟩)
    · cases inside with
      | nil => exact .inl ⟨rfl, rfl⟩
      | cons c inside =>
        obtain ⟨rfl, _⟩ := List.cons.inj split
        exact absurd List.mem_cons_self unclosed
    · right
      cases front with
      | nil => exact ⟨0, rfl, .first (List.cons.inj split).2 unclosed⟩
      | cons c front =>
        obtain ⟨rfl, behind⟩ := List.cons.inj split
        exact ⟨front.count closer + 1, by simp, .next behind unclosed⟩
  · rintro (⟨rfl, rfl⟩ | ⟨earlier, rfl, later⟩)
    · exact .first rfl List.not_mem_nil
    · cases later with
      | first split unclosed => exact @Section.next _ _ [] _ _ (by rw [split]; rfl) unclosed
      | @next front _ _ split unclosed =>
        have counted : front.count closer + 1 = (closer :: front).count closer := by simp
        rw [counted]
        exact .next (by rw [split]; rfl) unclosed

theorem section_other (other : c ≠ closer) : Section closer (c :: rest) number inside ↔
    (number = 0 ∧ ∃ later, inside = c :: later ∧ Section closer rest 0 later) ∨
      (number ≠ 0 ∧ Section closer rest number inside) := by
  constructor
  · rintro (⟨split, unclosed⟩ | @⟨front, _, _, split, unclosed⟩)
    · left
      cases inside with
      | nil => exact absurd (List.cons.inj split).1 other
      | cons d inside =>
        obtain ⟨rfl, behind⟩ := List.cons.inj split
        exact ⟨rfl, inside, rfl, .first behind (List.not_mem_of_not_mem_cons unclosed)⟩
    · right
      cases front with
      | nil => exact absurd (List.cons.inj split).1 other
      | cons d front =>
        obtain ⟨rfl, behind⟩ := List.cons.inj split
        refine ⟨Nat.succ_ne_zero _, ?_⟩
        rw [List.count_cons_of_ne other]
        exact .next behind unclosed
  · rintro (⟨rfl, later, rfl, behind⟩ | ⟨positive, later⟩)
    · cases behind with
      | first split unclosed =>
        exact .first (by rw [split]; rfl) (List.not_mem_cons_of_ne_of_not_mem (Ne.symm other) unclosed)
    · cases later with
      | first => exact absurd rfl positive
      | @next front _ _ split unclosed =>
        have counted : front.count closer = (c :: front).count closer :=
          (List.count_cons_of_ne other).symm
        rw [counted]
        exact .next (by rw [split]; rfl) unclosed

theorem section_iff (closer : Char) (text : List Char) : ∀ number inside,
    Section closer text number inside ↔ (pieces closer text).1[number]? = some inside := by
  refine pieces_induction closer (motive := fun text closed _ => ∀ number inside,
    Section closer text number inside ↔ closed[number]? = some inside) ?_ ?_ ?_ ?_ text
  · intro number inside
    constructor
    · rintro (⟨split, _⟩ | ⟨split, _⟩)
      all_goals simp at split
    · intro found
      cases found
  · intro rest closed _ ih number inside
    rw [section_closer]
    cases number with
    | zero => simp [eq_comm]
    | succ earlier => simp [ih]
  · intro c rest _ other ih number inside
    rw [section_other other]
    simp [ih]
  · intro c rest piece more _ other ih number inside
    rw [section_other other]
    cases number with
    | zero => simp [ih, eq_comm]
    | succ earlier => simp [ih]

/-- A character with a closer behind it stands in a section: what is written before it since the last closer begins
it, and what is written up to the next closer ends it. -/
theorem section_of_split {between : List Char} (before later : List Char) (other : c ≠ closer)
    (unclosed : closer ∉ between) :
    ∃ number front, Section closer (before ++ c :: (between ++ closer :: later)) number (front ++ c :: between) := by
  obtain ⟨front, split, behind⟩ := exists_front_unclosed closer before
  have begun := closer_not_mem_unclosed closer before
  generalize (pieces closer before).2 = tail at split begun
  have whole : closer ∉ tail ++ c :: between := by
    simp [begun, unclosed, Ne.symm other]
  subst split
  rcases behind with rfl | ⟨earlier, rfl⟩
  · exact ⟨0, tail, @Section.first _ _ _ later (by simp) whole⟩
  · exact ⟨_, tail, @Section.next _ _ earlier _ later (by simp) whole⟩

theorem Section.split {text : List Char} (stands : Section closer text number inside) :
    ∃ front back, text = front ++ (inside ++ closer :: back) := by
  cases stands with
  | first split _ => exact ⟨[], _, split⟩
  | @next front _ back split _ => exact ⟨front ++ [closer], back, by simp [split]⟩

/-- Every list is closed before the text ends. -/
def ListsClosed (outside : List Char) : Prop :=
  ∀ before after, outside = before ++ ')' :: after → '}' ∈ after

/-- Every command has the end of a list before the end of a branch. -/
def CommandsListed (outside : List Char) : Prop :=
  ∀ before after, outside = before ++ ';' :: after →
    ∃ between later, after = between ++ ')' :: later ∧ '}' ∉ between

theorem listsClosed_iff (outside : List Char) : ListsClosed outside ↔ ')' ∉ (pieces '}' outside).2 := by
  rw [mem_unclosed_iff (by decide), ListsClosed]
  simp only [not_exists, not_and, not_not]

/-- In complete sections a command stands in a list, and so before the end of one. -/
theorem Complete.commandsListed {outside : List Char} (complete : Complete (pieces '}' outside)) :
    CommandsListed outside := by
  intro before after split
  have ends : '}' ∈ after := by
    by_contra none
    exact complete.noCommand ((mem_unclosed_iff (by decide) outside).mpr ⟨before, after, split, none⟩)
  obtain ⟨between, later, rfl, unclosed⟩ := List.eq_append_cons_of_mem ends
  obtain ⟨number, front, stands⟩ := section_of_split before later (show ';' ≠ '}' by decide) unclosed
  rw [← split, section_iff] at stands
  have listed := complete.closed _ (List.mem_of_getElem? stands)
  have list : ')' ∈ between := by
    by_contra none
    exact listed ((mem_unclosed_iff (by decide) _).mpr ⟨front, between, rfl, none⟩)
  obtain ⟨inner, tail, rfl⟩ := List.append_of_mem list
  exact ⟨inner, tail ++ '}' :: later, by simp, fun member => unclosed (List.mem_append_left _ member)⟩

/-- A command that is listed is not left behind the lists of its branch. -/
theorem CommandsListed.closed {outside branch : List Char} (commands : CommandsListed outside)
    (member : branch ∈ (pieces '}' outside).1) : ';' ∉ (pieces ')' branch).2 := by
  intro left
  obtain ⟨before, after, rfl, none⟩ := (mem_unclosed_iff (by decide) branch).mp left
  obtain ⟨number, stands⟩ := List.getElem?_of_mem member
  obtain ⟨front, back, split⟩ := ((section_iff '}' outside number _).mpr stands).split
  obtain ⟨between, later, listed, unclosed⟩ :=
    commands (front ++ before) (after ++ '}' :: back) (by simp [split])
  -- The list would have to end in this branch, whose commands no list follows, or behind it.
  rcases List.append_eq_append_iff.mp listed with ⟨gap, rfl, rest⟩ | ⟨gap, rfl, rest⟩
  · cases gap with
    | nil => exact absurd (List.cons.inj rest).1 (by decide)
    | cons c gap =>
      obtain ⟨rfl, _⟩ := List.cons.inj rest
      exact unclosed (by simp)
  · cases gap with
    | nil => exact absurd (List.cons.inj rest).1 (by decide)
    | cons c gap =>
      obtain ⟨rfl, _⟩ := List.cons.inj rest
      exact none (by simp)

theorem complete_iff (outside : List Char) :
    Complete (pieces '}' outside) ↔ ListsClosed outside ∧ CommandsListed outside := by
  constructor
  · intro complete
    exact ⟨(listsClosed_iff outside).mpr complete.noList, complete.commandsListed⟩
  · rintro ⟨lists, commands⟩
    refine ⟨(listsClosed_iff outside).mp lists, ?_, fun branch member => commands.closed member⟩
    intro left
    obtain ⟨before, after, split, none⟩ := (mem_unclosed_iff (by decide) outside).mp left
    obtain ⟨between, later, rfl, _⟩ := commands before after split
    have ends := lists (before ++ ';' :: between) later (by simp [split])
    exact none (by simp [ends])

end Source

end Parley
