import Mathlib.Data.List.Forall2
import Parley.Proofs.Page.Basic

namespace Parley

/-- Pieces reach up to the first token that is none. -/
theorem pieces_unique {parts others : List Piece} {token other : Token}
    (ends : token.isPiece = false) (stops : other.isPiece = false)
    (same : parts.map Token.piece ++ token :: rest = others.map Token.piece ++ other :: more) :
    parts = others ∧ token = other ∧ rest = more := by
  obtain ⟨front, found⟩ := cut_unique (p := Token.isPiece) (by simp [Token.isPiece])
    (by simp [Token.isPiece]) ends stops same
  have injective : Function.Injective Token.piece := fun first second equal => by
    injection equal
  exact ⟨List.map_injective_iff.mpr injective front, found⟩

/-- Two ways to write a text part by part match part by part, if no part can begin where the other way has
none left. -/
theorem forall₂_of_flatMap {first : α → List γ} {second : β → List γ} {Match : α → β → Prop}
    {items : List α} {others : List β} {before after : List γ}
    (each : ∀ item other rest more, first item ++ rest = second other ++ more →
      Match item other ∧ rest = more)
    (ended : ∀ item rest, first item ++ rest ≠ after)
    (stopped : ∀ other more, second other ++ more ≠ before)
    (same : items.flatMap first ++ before = others.flatMap second ++ after) :
    List.Forall₂ Match items others ∧ before = after := by
  induction items generalizing others with
  | nil =>
    cases others with
    | nil => exact ⟨.nil, same⟩
    | cons other others =>
      rw [List.flatMap_cons, List.append_assoc] at same
      exact absurd same.symm (stopped other _)
  | cons item items ih =>
    cases others with
    | nil =>
      rw [List.flatMap_cons, List.append_assoc] at same
      exact absurd same (ended item _)
    | cons other others =>
      rw [List.flatMap_cons, List.flatMap_cons, List.append_assoc, List.append_assoc] at same
      obtain ⟨matched, later⟩ := each item other _ _ same
      obtain ⟨all, rest⟩ := ih later
      exact ⟨.cons matched all, rest⟩

theorem forall_of_flatMap {first : α → List γ} {second : β → List γ} {Good : α → Prop}
    {items : List α} {others : List β} {before after : List γ}
    (each : ∀ item other rest more, first item ++ rest = second other ++ more → Good item ∧ rest = more)
    (ended : ∀ item rest, first item ++ rest ≠ after)
    (stopped : ∀ other more, second other ++ more ≠ before)
    (same : items.flatMap first ++ before = others.flatMap second ++ after) :
    (∀ item ∈ items, Good item) ∧ before = after := by
  have matched : ∀ item other rest more, first item ++ rest = second other ++ more →
      (Good item ∧ True) ∧ rest = more := by
    intro item other rest more equal
    obtain ⟨good, later⟩ := each item other rest more equal
    exact ⟨⟨good, trivial⟩, later⟩
  obtain ⟨all, rest⟩ := forall₂_of_flatMap matched ended stopped same
  exact ⟨((List.forall₂_and_left items others).mp all).1, rest⟩

theorem eq_of_flatMap {first : α → List γ} {items others : List α} {before after : List γ}
    (each : ∀ item other rest more, first item ++ rest = first other ++ more →
      item = other ∧ rest = more)
    (ended : ∀ item rest, first item ++ rest ≠ after)
    (stopped : ∀ other more, first other ++ more ≠ before)
    (same : items.flatMap first ++ before = others.flatMap first ++ after) :
    items = others ∧ before = after := by
  obtain ⟨all, rest⟩ := forall₂_of_flatMap each ended stopped same
  exact ⟨List.forall₂_eq_eq_eq ▸ all, rest⟩

variable {options : Options}

/-- The first space after a name has begun ends it. -/
theorem name_unique {name other argument wording : List Piece} (begun : voiced name ≠ [])
    (started : voiced other ≠ []) (unbroken : .space ∉ voiced name) (whole : .space ∉ voiced other)
    (same : name ++ .space :: argument = other ++ .space :: wording) :
    name = other ∧ argument = wording := by
  have spoken : voiced name ++ .space :: argument = voiced other ++ .space :: wording := by
    have begun : (name.dropWhile Piece.isSilent).isEmpty = false := by simpa [voiced] using begun
    have started : (other.dropWhile Piece.isSilent).isEmpty = false := by simpa [voiced] using started
    have both := congrArg voiced same
    simpa [voiced, List.dropWhile_append, begun, started] using both
  obtain ⟨-, -, later⟩ := cut_unique (p := (· ≠ .space))
    (by simpa using fun piece member => ne_of_mem_of_not_mem member unbroken)
    (by simpa using fun piece member => ne_of_mem_of_not_mem member whole) (by simp) (by simp) spoken
  rw [later] at same
  exact ⟨List.append_cancel_right same, later⟩

namespace CommandPage

theorem tokens_unique {page other : CommandPage options}
    (same : page.tokens ++ rest = other.tokens ++ more) : page = other ∧ rest = more := by
  rw [tokens_eq, tokens_eq, List.append_assoc, List.append_assoc] at same
  obtain ⟨pieces, -, later⟩ := pieces_unique rfl rfl same
  obtain ⟨⟨name, command, begun, unbroken, known⟩, argument⟩ := page
  obtain ⟨⟨wording, meant, started, whole, found⟩, pieces_⟩ := other
  obtain ⟨rfl, rfl⟩ := name_unique begun started unbroken whole pieces
  obtain rfl := Option.some.inj (known.symm.trans found)
  exact ⟨rfl, later⟩

end CommandPage

namespace ResponsePage

theorem tokens_unique {page other : ResponsePage options}
    (same : page.tokens ++ rest = other.tokens ++ more) : page = other ∧ rest = more := by
  rw [tokens_eq, tokens_eq] at same
  obtain ⟨lines, -, inside⟩ := pieces_unique rfl rfl same
  have ended : ∀ (command : CommandPage options) (trailing : List Piece) (back later : List Token),
      command.tokens ++ back ≠ trailing.map .piece ++ .closes .commands :: later := by
    intro command trailing back later equal
    rw [CommandPage.tokens_eq, List.append_assoc] at equal
    obtain ⟨-, impossible, -⟩ := pieces_unique rfl rfl equal
    cases impossible
  obtain ⟨commands, trailed⟩ := eq_of_flatMap (fun _ _ _ _ => CommandPage.tokens_unique)
    (fun command back => ended command _ back _) (fun command back => ended command _ back _) inside
  obtain ⟨trailing, -, later⟩ := pieces_unique rfl rfl trailed
  obtain ⟨⟨_, _, _, _⟩, _, _⟩ := page
  obtain ⟨⟨_, _, _, _⟩, _, _⟩ := other
  subst lines commands trailing
  exact ⟨rfl, later⟩

end ResponsePage

/-- No response begins with what closes its branch. -/
theorem ResponsePage.tokens_ne (page : ResponsePage options) (closing : List Piece) :
    page.tokens ++ rest ≠ closing.map .piece ++ .closes .branch :: more := by
  intro equal
  rw [tokens_eq] at equal
  obtain ⟨-, impossible, -⟩ := pieces_unique rfl rfl equal
  cases impossible

namespace BranchPage

theorem tokens_unique {page other : BranchPage options}
    (same : page.tokens ++ rest = other.tokens ++ more) : page = other ∧ rest = more := by
  rw [tokens_eq, tokens_eq] at same
  injection same with _ same
  injection same with header same
  injection same with message inside
  obtain ⟨responses, closed⟩ := eq_of_flatMap (fun _ _ _ _ => ResponsePage.tokens_unique)
    (fun response _ => response.tokens_ne _) (fun response _ => response.tokens_ne _) inside
  obtain ⟨closing, -, later⟩ := pieces_unique rfl rfl closed
  obtain ⟨⟨_, _, _, _, _, _, _⟩, _, _, _⟩ := page
  obtain ⟨⟨_, _, _, _, _, _, _⟩, _, _, _⟩ := other
  injection header with header
  injection header with header
  injection message with message
  injection message with message
  subst header message responses closing
  exact ⟨rfl, later⟩

end BranchPage

namespace Page

/-- There is one way at most to take a text apart. -/
theorem eq_of_text {page other : Page options} (same : page.text = other.text) : page = other := by
  have same := spell_injective same
  rw [tokens_eq, tokens_eq] at same
  obtain ⟨front, -, inside⟩ := pieces_unique rfl rfl same
  obtain ⟨title, -, later⟩ := pieces_unique rfl rfl inside
  have begins : ∀ (branch : BranchPage options) (rest : List Token), branch.tokens ++ rest ≠ [] := by
    simp [BranchPage.tokens]
  obtain ⟨branches, -⟩ := eq_of_flatMap (fun _ _ _ _ => BranchPage.tokens_unique) begins begins
    (congrArg (· ++ []) later)
  obtain ⟨⟨_, _, _, _, _⟩, _⟩ := page
  obtain ⟨⟨_, _, _, _, _⟩, _⟩ := other
  subst front title branches
  rfl

end Page

end Parley
