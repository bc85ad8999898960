import Parley.Proofs.Page.Unambiguous

/-! Parts of a page. A balanced part of what stands behind a title is made of whole branches, so two parts
make a page if and only if each of them makes one under the same title. -/

namespace Parley

/-- What may stand in a branch. -/
def Token.isWithin : Token → Bool
  | piece _ | ends | opens .commands | closes .commands => true
  | opens _ | closes _ => false

variable {options : Options}

namespace ResponsePage

theorem within (page : ResponsePage options) : ∀ token ∈ page.tokens, token.isWithin = true := by
  have listed : ∀ token ∈ page.list, token.isWithin = true := by
    intro token member
    have inside := page.inside token member
    cases token with
    | piece part => rfl
    | ends => rfl
    | opens region => cases inside
    | closes region => cases inside
  have spelled : page.tokens =
      page.line.map .piece ++ .opens .commands :: (page.list ++ [.closes .commands]) := by
    simp [tokens, ResponseStart.tokens, list]
  intro token member
  rw [spelled] at member
  simp only [List.mem_append, List.mem_map, List.mem_cons, List.not_mem_nil, or_false] at member
  rcases member with ⟨part, _, rfl⟩ | rfl | member | rfl
  · rfl
  · rfl
  · exact listed token member
  · rfl

end ResponsePage

namespace BranchPage

def body (page : BranchPage options) : List Token :=
  .piece (.quoted page.header page.headerClosed) :: .piece (.quoted page.message page.messageClosed) ::
    (page.responses.flatMap ResponsePage.tokens ++ page.closing.map .piece)

theorem tokens_body (page : BranchPage options) :
    page.tokens = .opens .branch :: (page.body ++ [.closes .branch]) := by
  simp [tokens, BranchStart.tokens, body]

theorem within (page : BranchPage options) : ∀ token ∈ page.body, token.isWithin = true := by
  intro token member
  simp only [body, List.mem_cons, List.mem_append, List.mem_flatMap, List.mem_map] at member
  rcases member with rfl | rfl | ⟨response, _, inside⟩ | ⟨part, _, rfl⟩
  · rfl
  · rfl
  · exact response.within token inside
  · rfl

theorem closer_not_mem_body (page : BranchPage options) : .closes .branch ∉ page.body := by
  intro member
  cases page.within _ member

end BranchPage

/-- From inside a branch, a text that closes all that is open first closes the branch. -/
theorem exists_closer_of_balanced {scope : Option Region} {tokens : List Token}
    (opened : scope = some .branch ∨ scope = some .commands)
    (closes : Source.Balanced scope false (spell tokens)) :
    ∃ before after, tokens = before ++ .closes .branch :: after ∧ .closes .branch ∉ before ∧
      Source.Balanced none false (spell after) := by
  induction tokens generalizing scope with
  | nil =>
    cases closes
    rcases opened with same | same <;> cases same
  | cons token rest ih =>
    have further {behind : Option Region} (still : behind = some .branch ∨ behind = some .commands)
        (other : token ≠ .closes .branch) (later : Source.Balanced behind false (spell rest)) :
        ∃ before after, token :: rest = before ++ .closes .branch :: after ∧
          .closes .branch ∉ before ∧ Source.Balanced none false (spell after) := by
      obtain ⟨before, after, rfl, early, shut⟩ := ih still later
      exact ⟨token :: before, after, rfl, List.not_mem_cons_of_ne_of_not_mem (Ne.symm other) early, shut⟩
    rcases token.cases_written with ⟨content, closed, rfl⟩ | ⟨c, rfl, unquoted⟩
    · refine further opened (by simp) ?_
      rwa [spell_cons, Token.written_quoted, Source.balanced_string closed] at closes
    · rw [spell_cons, Token.written_ofChar unquoted, List.singleton_append,
        Source.balanced_outside unquoted] at closes
      obtain ⟨behind, turn, later⟩ := closes
      cases turn with
      | openTitle | openBranch => rcases opened with same | same <;> cases same
      | closeTitle => rcases opened with same | same <;> cases same
      | closeBranch => exact ⟨[], rest, rfl, List.not_mem_nil, later⟩
      | openList => exact further (.inr rfl) (by decide) later
      | closeList => exact further (.inl rfl) (by decide) later
      | endCommand => exact further (.inr rfl) (by decide) later
      | plain free => exact further opened (by simp [Token.ofChar, free]) later

/-- A balanced part of a list of branches is made of whole branches. -/
theorem split_branches {branches : List (BranchPage options)} {front back : List Token}
    (same : branches.flatMap BranchPage.tokens = front ++ back)
    (closes : Source.Balanced none false (spell front)) :
    ∃ left right, branches = left ++ right ∧ front = left.flatMap BranchPage.tokens ∧
      back = right.flatMap BranchPage.tokens := by
  induction branches generalizing front with
  | nil =>
    obtain ⟨rfl, rfl⟩ := List.append_eq_nil_iff.mp same.symm
    exact ⟨[], [], rfl, rfl, rfl⟩
  | cons first rest ih =>
    cases front with
    | nil => exact ⟨[], first :: rest, rfl, rfl, same.symm⟩
    | cons token more =>
      rw [List.flatMap_cons, first.tokens_body, List.cons_append, List.cons_append] at same
      obtain ⟨rfl, inside⟩ := List.cons.inj same
      have entered : Source.Balanced (some .branch) false (spell more) := by
        have brace : '{' ≠ '"' := by decide
        obtain ⟨behind, turn, later⟩ := (Source.balanced_outside brace).mp closes
        cases turn with
        | openBranch => exact later
        | plain free => exact absurd free (by decide)
      obtain ⟨before, after, rfl, early, shut⟩ := exists_closer_of_balanced (.inl rfl) entered
      rw [List.append_assoc, List.append_assoc] at inside
      have apart {tokens : List Token} (absent : .closes .branch ∉ tokens) :
          ∀ token ∈ tokens, decide (token ≠ .closes .branch) = true := by
        intro token member
        exact decide_eq_true (ne_of_mem_of_not_mem member absent)
      obtain ⟨rfl, _, later⟩ :=
        cut_unique (apart first.closer_not_mem_body) (apart early) (by simp) (by simp) inside
      obtain ⟨left, right, rfl, rfl, rfl⟩ := ih later shut
      refine ⟨first :: left, right, rfl, ?_, rfl⟩
      rw [List.flatMap_cons, first.tokens_body, List.cons_append, List.append_assoc]
      rfl

namespace Page

def heading (page : Page options) : List Token :=
  page.front.map .piece ++ .opens .title :: page.title.map .piece

theorem tokens_heading (page : Page options) :
    page.tokens = page.heading ++ .closes .title :: page.branches.flatMap BranchPage.tokens := by
  simp [tokens_eq, heading]

theorem title_closer_not_mem_heading (page : Page options) : .closes .title ∉ page.heading := by
  simp [heading]

theorem title_closer_not_mem_branches (page : Page options) :
    .closes .title ∉ page.branches.flatMap BranchPage.tokens := by
  intro member
  obtain ⟨branch, _, inside⟩ := List.mem_flatMap.mp member
  rw [branch.tokens_body, List.mem_cons, List.mem_append, List.mem_singleton] at inside
  rcases inside with opener | within | closer
  · cases opener
  · cases branch.within _ within
  · cases closer

/-- A page ends its title once, and has nothing but branches behind it. -/
theorem tokens_eq_iff (page : Page options) (front rest : List Token) :
    page.tokens = front ++ .closes .title :: rest ↔
      page.heading = front ∧ page.branches.flatMap BranchPage.tokens = rest := by
  rw [tokens_heading, List.append_cons_inj_of_notMem page.title_closer_not_mem_heading
    page.title_closer_not_mem_branches]
  simp

theorem title_eq_of_heading {page other : Page options} (same : page.heading = other.heading) :
    page.title = other.title := by
  have ended : page.heading ++ [.closes .title] = other.heading ++ [.closes .title] := by rw [same]
  rw [heading, heading, List.append_assoc, List.append_assoc, List.cons_append, List.cons_append] at ended
  obtain ⟨_, _, inside⟩ := pieces_unique rfl rfl ended
  exact (pieces_unique rfl rfl inside).1

theorem branches_eq_of_tokens {branches others : List (BranchPage options)}
    (same : branches.flatMap BranchPage.tokens = others.flatMap BranchPage.tokens) : branches = others := by
  have begins : ∀ (branch : BranchPage options) (rest : List Token), branch.tokens ++ rest ≠ [] := by
    simp [BranchPage.tokens]
  exact (eq_of_flatMap (fun _ _ _ _ => BranchPage.tokens_unique) begins begins (congrArg (· ++ []) same)).1

def withBranches (page : Page options) (branches : List (BranchPage options)) (inhabited : branches ≠ []) :
    Page options :=
  ⟨{ page.toPageStart with branches }, inhabited⟩

/-- Two parts under one title make a page exactly if each part makes one. -/
theorem beside_iff {front first second : List Token} (begun : first ≠ []) (further : second ≠ [])
    (closes : Source.Balanced none false (spell first)) :
    (∃ page : Page options, page.tokens = front ++ .closes .title :: (first ++ second)) ↔
      (∃ page : Page options, page.tokens = front ++ .closes .title :: first) ∧
        ∃ page : Page options, page.tokens = front ++ .closes .title :: second := by
  constructor
  · intro whole
    obtain ⟨page, spelled⟩ := whole
    obtain ⟨heading, both⟩ := (page.tokens_eq_iff _ _).mp spelled
    obtain ⟨left, right, _, rfl, rfl⟩ := split_branches both closes
    have leftInhabited : left ≠ [] := by
      rintro rfl
      exact begun rfl
    have rightInhabited : right ≠ [] := by
      rintro rfl
      exact further rfl
    constructor
    · refine ⟨page.withBranches left leftInhabited, ?_⟩
      exact ((page.withBranches left leftInhabited).tokens_eq_iff _ _).mpr ⟨heading, rfl⟩
    · refine ⟨page.withBranches right rightInhabited, ?_⟩
      exact ((page.withBranches right rightInhabited).tokens_eq_iff _ _).mpr ⟨heading, rfl⟩
  · intro parts
    obtain ⟨⟨left, spelled⟩, right, also⟩ := parts
    obtain ⟨heading, front⟩ := (left.tokens_eq_iff _ _).mp spelled
    obtain ⟨_, back⟩ := (right.tokens_eq_iff _ _).mp also
    have inhabited : left.branches ++ right.branches ≠ [] := by simp [left.inhabited]
    refine ⟨left.withBranches (left.branches ++ right.branches) inhabited, ?_⟩
    refine ((left.withBranches _ inhabited).tokens_eq_iff _ _).mpr ⟨heading, ?_⟩
    rw [← front, ← back, ← List.flatMap_append]
    rfl

/-- The page of two parts has the title of both, and the branches of one behind those of the other. -/
theorem eq_beside {front first second : List Token} {whole left right : Page options}
    (spelled : whole.tokens = front ++ .closes .title :: (first ++ second))
    (here : left.tokens = front ++ .closes .title :: first)
    (there : right.tokens = front ++ .closes .title :: second) :
    whole.title = left.title ∧ whole.title = right.title ∧
      whole.branches = left.branches ++ right.branches := by
  obtain ⟨wholeHeading, both⟩ := (whole.tokens_eq_iff _ _).mp spelled
  obtain ⟨leftHeading, one⟩ := (left.tokens_eq_iff _ _).mp here
  obtain ⟨rightHeading, other⟩ := (right.tokens_eq_iff _ _).mp there
  refine ⟨title_eq_of_heading (wholeHeading.trans leftHeading.symm),
    title_eq_of_heading (wholeHeading.trans rightHeading.symm), branches_eq_of_tokens ?_⟩
  rw [both, ← one, ← other, List.flatMap_append]

end Page

end Parley
