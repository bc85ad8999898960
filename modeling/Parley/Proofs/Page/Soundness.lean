import Parley.Proofs.Page.Pieces

/-! Whatever is built was a page. Each token that a draft takes extends what the tokens before it spell, and
only a page can be finished. -/

namespace Parley

variable {options : Options}

/-- The branch that a draft holds of what has been read; `counts` are not read but foretold. -/
def BranchStart.draft (start : BranchStart options) (counts : List Nat) : BranchDraft :=
  ⟨String.ofList start.header, String.ofList start.message,
    (start.responses.map fun page => page.response).reverse, counts⟩

def ResponseStart.list (start : ResponseStart options) (counted : Nat) : ListDraft :=
  ⟨String.ofList (contents start.line), (start.commands.map CommandPage.directive).reverse, counted⟩

def PageStart.stage (start : PageStart options) (counts : Counts) (position : Position) : Stage :=
  .body (String.ofList (contents start.title))
    (start.branches.map fun page => page.branch).reverse counts position

/-- What tokens spell up to a place, and the draft that has taken them. -/
inductive Draft.Spells (options : Options) : Option Region → List Token → Draft → Prop
  | before (front : List Piece) :
      Spells options none (front.map .piece) ⟨false, .of (contents front), .title false⟩
  | title (front title : List Piece) (mute : contents front = []) :
      Spells options (some .title) (front.map .piece ++ .opens .title :: title.map .piece)
        ⟨false, .of (contents title), .title true⟩
  | between (page : PageStart options) (loose : List Piece)
      (plain : ∀ piece ∈ loose, piece.isPlain = true) :
      Spells options none (page.tokens ++ loose.map .piece)
        ⟨false, .of (contents loose), page.stage counts (.between false)⟩
  | header (page : PageStart options) (loose : List Piece)
      (plain : ∀ piece ∈ loose, piece.isPlain = true) :
      Spells options (some .branch) (page.tokens ++ .opens .branch :: loose.map .piece)
        ⟨false, .of (contents loose), page.stage counts (.header false)⟩
  | message (page : PageStart options) (header : List Char) (closed : '"' ∉ header)
      (named : header ≠ []) (unreserved : String.ofList header ≠ exitHeader) (loose : List Piece)
      (plain : ∀ piece ∈ loose, piece.isPlain = true) :
      Spells options (some .branch)
        (page.tokens ++ .opens .branch :: .piece (.quoted header closed) :: loose.map .piece)
        ⟨false, .of (contents loose), page.stage counts (.message false (String.ofList header))⟩
  | responses (page : PageStart options) (branch : BranchStart options) (line : List Piece)
      (leading : Leading line) :
      Spells options (some .branch) (page.tokens ++ branch.tokens ++ line.map .piece)
        ⟨false, .of (contents line), page.stage counts (.responses (branch.draft waiting))⟩
  | commands (page : PageStart options) (branch : BranchStart options)
      (response : ResponseStart options) (name : List Piece) (unbroken : .space ∉ voiced name) :
      Spells options (some .commands)
        (page.tokens ++ branch.tokens ++ response.tokens ++ name.map .piece)
        ⟨false, .of (contents (voiced name)),
          page.stage counts (.commands (branch.draft waiting) (response.list counted))⟩
  | argument (page : PageStart options) (branch : BranchStart options)
      (response : ResponseStart options) (command : CommandStart options) (argument : List Piece) :
      Spells options (some .commands)
        (page.tokens ++ branch.tokens ++ response.tokens ++ command.tokens ++ argument.map .piece)
        ⟨false, .argument argument,
          page.stage counts (.argument (branch.draft waiting) (response.list counted) command.command)⟩

namespace Draft

variable {total : Counts} {tokens : List Token} {draft next : Draft}

/-- A string is the whole of what is read for a header, a message or a line that is still empty. -/
theorem eq_nil_of_isEmpty_of {loose : List Piece} (plain : ∀ piece ∈ loose, piece.isPlain = true)
    (none : (Buffer.of (contents loose)).isEmpty = true) : loose = [] := by
  rw [Buffer.isEmpty_of, List.isEmpty_iff] at none
  exact eq_nil_of_plain plain none

/-- What is not yet a name goes on being none, and a space makes a name of a command a command. -/
theorem Spells.name {page : PageStart options} {branch : BranchStart options}
    {response : ResponseStart options} {name : List Piece} (unbroken : .space ∉ voiced name)
    {part : Piece}
    (taken : take? options total ⟨false, .of (contents (voiced name)),
      page.stage counts (.commands (branch.draft waiting) (response.list counted))⟩ (.piece part) =
        some next) :
    Spells options (some .commands)
      (page.tokens ++ branch.tokens ++ response.tokens ++ name.map .piece ++ [.piece part]) next := by
  by_cases goesOn : part ≠ .space ∨ voiced name = []
  · rw [PageStart.stage, take?_name goesOn] at taken
    obtain rfl := Option.some.inj taken
    have unbroken : .space ∉ voiced (name ++ [part]) := by
      rcases goesOn with other | none
      · exact unbroken_snoc unbroken other
      · rw [voiced_snoc, none]
        split
        · exact List.not_mem_nil
        · rename_i loud
          rintro same
          obtain rfl := List.mem_singleton.mp same
          exact loud (by decide)
    have spelled := @Spells.commands options counts waiting counted page branch response _ unbroken
    simpa [PageStart.stage] using spelled
  · obtain ⟨rfl, begun⟩ : part = .space ∧ voiced name ≠ [] := by simpa using goesOn
    rw [PageStart.stage, take?_space begun] at taken
    obtain ⟨command, known, rfl⟩ := Option.map_eq_some_iff.mp taken
    have spelled := @Spells.argument options counts waiting counted page branch response
      ⟨name, command, begun, unbroken, known⟩ []
    simpa [PageStart.stage, CommandStart.tokens, Buffer.argument] using spelled

theorem Spells.piece (spells : Spells options scope tokens draft) {part : Piece}
    (taken : draft.take? options total (.piece part) = some next) :
    Spells options scope (tokens ++ [.piece part]) next := by
  cases spells with
  | before front =>
    rw [take?_title] at taken
    obtain rfl := Option.some.inj taken
    have spelled := @Spells.before options (front ++ [part])
    simpa using spelled
  | title front title mute =>
    rw [take?_title] at taken
    obtain rfl := Option.some.inj taken
    have spelled := @Spells.title options front (title ++ [part]) mute
    simpa using spelled
  | @between counts page loose plain =>
    cases part with
    | plain c free =>
      simp [take?_eq, readPlain, PageStart.stage] at taken
      subst taken
      have spelled := @Spells.between options counts page _ (plain_snoc plain free)
      simpa [PageStart.stage] using spelled
    | quoted content closed => simp [take?_eq, quote?, PageStart.stage] at taken
  | @header counts page loose plain =>
    cases part with
    | plain c free =>
      simp [take?_eq, readPlain, PageStart.stage] at taken
      subst taken
      have spelled := @Spells.header options counts page _ (plain_snoc plain free)
      simpa [PageStart.stage] using spelled
    | quoted content closed =>
      simp only [take?_eq, quote?, PageStart.stage, Option.ite_none_right_eq_some] at taken
      obtain ⟨⟨none, named, unreserved⟩, taken⟩ := taken
      obtain rfl := Option.some.inj taken
      obtain rfl := eq_nil_of_isEmpty_of plain none
      have spelled := @Spells.message options counts page content closed named unreserved [] (List.forall_mem_nil _)
      simpa [PageStart.stage] using spelled
  | @message counts page header headerClosed named unreserved loose plain =>
    cases part with
    | plain c free =>
      simp [take?_eq, readPlain, PageStart.stage] at taken
      subst taken
      have spelled := @Spells.message options counts page header headerClosed named unreserved _
        (plain_snoc plain free)
      simpa [PageStart.stage] using spelled
    | quoted content closed =>
      simp only [take?_eq, quote?, PageStart.stage, Option.ite_none_right_eq_some] at taken
      obtain ⟨none, taken⟩ := taken
      obtain rfl := Option.some.inj taken
      obtain rfl := eq_nil_of_isEmpty_of plain none
      have spelled := @Spells.responses options counts (counts.headD []) page
        ⟨header, content, [], headerClosed, closed, named, unreserved⟩ [] leading_nil
      simpa [PageStart.stage, BranchStart.tokens, BranchStart.draft] using spelled
  | @responses counts waiting page branch line leading =>
    by_cases allowed : part.isPlain = true ∨ contents line = []
    · rw [PageStart.stage, take?_line allowed] at taken
      obtain rfl := Option.some.inj taken
      have spelled := @Spells.responses options counts waiting page branch _ (leading.snoc allowed)
      simpa [PageStart.stage] using spelled
    · cases part with
      | plain c free => exact absurd (.inl rfl) allowed
      | quoted content closed =>
        have said : contents line ≠ [] := fun none => allowed (.inr none)
        simp [take?_eq, quote?, PageStart.stage, said] at taken
  | commands page branch response name unbroken => exact Spells.name unbroken taken
  | @argument counts waiting counted page branch response command argument =>
    rw [PageStart.stage, take?_argument] at taken
    obtain rfl := Option.some.inj taken
    have spelled := @Spells.argument options counts waiting counted page branch response command
      (argument ++ [part])
    simpa [PageStart.stage] using spelled

theorem Spells.openTitle (spells : Spells options none tokens draft)
    (taken : draft.take? options total (.opens .title) = some next) :
    Spells options (some .title) (tokens ++ [.opens .title]) next := by
  cases spells with
  | before front =>
    simp [take?_eq, Draft.openTitle] at taken
    obtain ⟨mute, rfl⟩ := taken
    have spelled := @Spells.title options front [] mute
    simpa [mute] using spelled
  | between page loose plain => simp [take?_eq, Draft.openTitle, PageStart.stage] at taken

theorem Spells.closeTitle (spells : Spells options (some .title) tokens draft)
    (taken : draft.take? options total (.closes .title) = some next) :
    Spells options none (tokens ++ [.closes .title]) next := by
  cases spells with
  | title front title mute =>
    simp only [take?_eq, Draft.closeTitle, Buffer.chars_of] at taken
    split at taken
    · cases taken
    · rename_i visible
      obtain rfl := Option.some.inj taken
      have visible : ∃ c ∈ contents title, Text.isBlank c = false := by simpa using visible
      have spelled := @Spells.between options total ⟨front, title, [], mute, visible⟩ []
        (List.forall_mem_nil _)
      simpa [PageStart.stage, PageStart.tokens] using spelled

theorem Spells.openBranch (spells : Spells options none tokens draft)
    (taken : draft.take? options total (.opens .branch) = some next) :
    Spells options (some .branch) (tokens ++ [.opens .branch]) next := by
  cases spells with
  | before front => simp [take?_eq, Draft.openBranch] at taken
  | @between counts page loose plain =>
    cases counts with
    | nil => simp [take?_eq, Draft.openBranch, PageStart.stage] at taken
    | cons row later =>
      simp [take?_eq, Draft.openBranch, PageStart.stage] at taken
      obtain ⟨none, rfl⟩ := taken
      obtain rfl := eq_nil_of_plain plain none
      have spelled := @Spells.header options (row :: later) page [] (List.forall_mem_nil _)
      simpa [PageStart.stage] using spelled

theorem Spells.closeBranch (spells : Spells options (some .branch) tokens draft)
    (taken : draft.take? options total (.closes .branch) = some next) :
    Spells options none (tokens ++ [.closes .branch]) next := by
  cases spells with
  | header page loose plain => simp [take?_eq, Draft.closeBranch, PageStart.stage] at taken
  | message page header closed named unreserved loose plain =>
    simp [take?_eq, Draft.closeBranch, PageStart.stage] at taken
  | @responses counts waiting page branch line leading =>
    simp only [take?_eq, Draft.closeBranch, PageStart.stage] at taken
    split at taken
    · cases taken
    · rename_i said
      split at taken
      · cases taken
      · split at taken
        · cases taken
        · rename_i answered
          obtain rfl := Option.some.inj taken
          have mute : contents line = [] := by simpa using said
          have answered : branch.responses ≠ [] := by simpa [BranchStart.draft] using answered
          have spelled := @Spells.between options counts.tail
            { page with branches := page.branches ++ [⟨branch, line, answered, mute⟩] } []
              (List.forall_mem_nil _)
          simpa [PageStart.stage, PageStart.tokens, BranchPage.tokens, BranchStart.draft,
            BranchStart.branch, mute] using spelled

theorem Spells.openList (spells : Spells options (some .branch) tokens draft)
    (taken : draft.take? options total (.opens .commands) = some next) :
    Spells options (some .commands) (tokens ++ [.opens .commands]) next := by
  cases spells with
  | header page loose plain => simp [take?_eq, Draft.openList, PageStart.stage] at taken
  | message page header closed named unreserved loose plain =>
    simp [take?_eq, Draft.openList, PageStart.stage] at taken
  | @responses counts waiting page branch line leading =>
    cases waiting with
    | nil => simp [take?_eq, Draft.openList, PageStart.stage, BranchStart.draft] at taken
    | cons counted later =>
      simp only [take?_eq, Draft.openList, PageStart.stage, BranchStart.draft] at taken
      split at taken
      · cases taken
      rename_i said
      obtain rfl := Option.some.inj taken
      have spoken : contents line ≠ [] := by simpa using said
      have spelled := @Spells.commands options counts later counted page branch
        ⟨line, [], leading, spoken⟩ [] List.not_mem_nil
      simpa [PageStart.stage, BranchStart.draft, ResponseStart.tokens, ResponseStart.list, voiced]
        using spelled

theorem Spells.closeList (spells : Spells options (some .commands) tokens draft)
    (taken : draft.take? options total (.closes .commands) = some next) :
    Spells options (some .branch) (tokens ++ [.closes .commands]) next := by
  cases spells with
  | @commands counts waiting counted page branch response name unbroken =>
    simp only [take?_eq, Draft.closeList, PageStart.stage] at taken
    split at taken
    · cases taken
    rename_i held
    split at taken
    · cases taken
    obtain rfl := Option.some.inj taken
    have silent : voiced name = [] := by simpa [isEmpty_contents_voiced] using held
    have spelled := @Spells.responses options counts waiting page
      { branch with responses := branch.responses ++ [⟨response, name, silent⟩] } [] leading_nil
    simpa [PageStart.stage, BranchStart.draft, BranchStart.tokens, ResponsePage.tokens,
      ResponseStart.list, ResponseStart.response, silent] using spelled
  | argument page branch response command argument =>
    simp [take?_eq, Draft.closeList, PageStart.stage] at taken

theorem Spells.endCommand (spells : Spells options (some .commands) tokens draft)
    (taken : draft.take? options total .ends = some next) :
    Spells options (some .commands) (tokens ++ [.ends]) next := by
  cases spells with
  | commands page branch response name unbroken =>
    simp [take?_eq, Draft.endCommand, PageStart.stage] at taken
  | @argument counts waiting counted page branch response command argument =>
    simp only [take?_eq, Draft.endCommand, PageStart.stage] at taken
    split at taken
    · cases taken
    obtain rfl := Option.some.inj taken
    have spelled := @Spells.commands options counts waiting counted page branch
      { response with commands := response.commands ++ [⟨command, argument⟩] } [] List.not_mem_nil
    simpa [PageStart.stage, ResponseStart.tokens, ResponseStart.list, CommandPage.tokens,
      CommandPage.directive, Buffer.trimmed_argument, voiced] using spelled

/-- One token: the balance of the text decides which ones may come. -/
theorem Spells.take (spells : Spells options scope tokens draft) {token : Token} {rest : List Char}
    (closes : Source.Balanced scope false (token.written ++ rest))
    (taken : draft.take? options total token = some next) :
    ∃ after, Source.Balanced after false rest ∧ Spells options after (tokens ++ [token]) next := by
  match token with
  | .piece (.plain c free) => exact ⟨scope, (Source.balanced_plain free).mp closes, spells.piece taken⟩
  | .piece (.quoted content closed) =>
    exact ⟨scope, (Source.balanced_string closed).mp closes, spells.piece taken⟩
  | .opens region =>
    obtain ⟨after, turn, later⟩ := (Source.balanced_outside (by cases region <;> decide)).mp closes
    refine ⟨after, later, ?_⟩
    cases region <;> cases turn
    case title.openTitle => exact spells.openTitle taken
    case branch.openBranch => exact spells.openBranch taken
    case commands.openList => exact spells.openList taken
    all_goals contradiction
  | .closes region =>
    obtain ⟨after, turn, later⟩ := (Source.balanced_outside (by cases region <;> decide)).mp closes
    refine ⟨after, later, ?_⟩
    cases region <;> cases turn
    case title.closeTitle => exact spells.closeTitle taken
    case branch.closeBranch => exact spells.closeBranch taken
    case commands.closeList => exact spells.closeList taken
    all_goals contradiction
  | .ends =>
    obtain ⟨after, turn, later⟩ := (Source.balanced_outside (by decide)).mp closes
    refine ⟨after, later, ?_⟩
    cases turn
    case endCommand => exact spells.endCommand taken
    case plain free => exact absurd free (by decide)

theorem Spells.foldlM (spells : Spells options scope tokens draft) {rest : List Token} {last : Draft}
    (closes : Source.Balanced scope false (spell rest))
    (taken : rest.foldlM (take? options total) draft = some last) :
    ∃ after, Source.Balanced after false [] ∧ Spells options after (tokens ++ rest) last := by
  induction rest generalizing scope tokens draft with
  | nil =>
    obtain rfl := Option.some.inj taken
    exact ⟨scope, closes, by simpa using spells⟩
  | cons token rest ih =>
    rw [List.foldlM_cons] at taken
    obtain ⟨next, first, taken⟩ := Option.bind_eq_some_iff.mp taken
    obtain ⟨after, later, spelled⟩ := spells.take closes first
    simpa using ih spelled later taken

theorem Spells.finish (spells : Spells options none tokens draft)
    (finished : draft.finish = .ok dialogue) :
    ∃ page : Page options, page.tokens = tokens ∧ page.dialogue = dialogue := by
  cases spells with
  | before front => cases finished
  | between page loose plain =>
    simp only [Draft.finish, PageStart.stage, List.reverse_reverse] at finished
    split at finished
    · cases finished
    rename_i said
    split at finished
    · cases finished
    split at finished
    · cases finished
    have mute : contents loose = [] := by simpa using said
    obtain rfl := eq_nil_of_plain plain mute
    have inhabited : page.branches ≠ [] := by
      intro none
      rw [none] at finished
      cases finished
    refine ⟨⟨page, inhabited⟩, by simp, ?_⟩
    have whole := Page.ofBranches?_dialogue ⟨page, inhabited⟩
    exact Except.ok.inj (whole.symm.trans finished)

end Draft

/-- A balanced text that a dialogue is built from is the text of a page that spells the dialogue. -/
theorem page_of_build {counts : Counts} {marks : List Mark} {dialogue : Dialogue}
    (closes : Source.Balanced none false (Source.text marks))
    (built : build options counts marks = .ok dialogue) :
    ∃ page : Page options, page.text = Source.text marks ∧ page.dialogue = dialogue := by
  obtain ⟨_, tokens, _, spelled⟩ := closes.tokens
  have spelled : Source.text marks = spell tokens := spelled
  obtain ⟨last, taken, finished⟩ := (build_ok_iff spelled dialogue).mp built
  rw [spelled] at closes ⊢
  obtain ⟨after, closed, spells⟩ := (Draft.Spells.before []).foldlM closes taken
  cases closed with
  | done =>
    obtain ⟨page, same, spoken⟩ := spells.finish finished
    refine ⟨page, ?_, spoken⟩
    rw [Page.text, same]
    rfl

end Parley
