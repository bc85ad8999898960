import Parley.Proofs.Page.Language
import Parley.Proofs.Page.Unambiguous

namespace Parley

structure ResponseForm where
  response : List Char
  list : List Token
  closed : '"' ∉ response
  inside : ∀ token ∈ list, token.isInside = true

def ResponseForm.tokens (form : ResponseForm) : List Token :=
  .piece (.quoted form.response form.closed) :: .opens .commands ::
    (form.list ++ [.closes .commands])

/-- A header, a message and at least one response, and nothing else. -/
structure BranchForm where
  header : List Char
  message : List Char
  responses : List ResponseForm
  headerClosed : '"' ∉ header
  messageClosed : '"' ∉ message
  answered : responses ≠ []

namespace BranchForm

def tokens (form : BranchForm) : List Token :=
  .opens .branch :: .piece (.quoted form.header form.headerClosed) ::
    .piece (.quoted form.message form.messageClosed) ::
      (form.responses.flatMap ResponseForm.tokens ++ [.closes .branch])

def texts (form : BranchForm) : String × String × List String :=
  ⟨String.ofList form.header, String.ofList form.message,
    form.responses.map fun response => String.ofList response.response⟩

end BranchForm

/-- A title and at least one branch, and nothing else. -/
structure Form where
  title : List Piece
  branches : List BranchForm
  inhabited : branches ≠ []

namespace Form

def tokens (form : Form) : List Token :=
  .opens .title :: (form.title.map .piece ++ .closes .title :: form.branches.flatMap BranchForm.tokens)

def texts (form : Form) : String × List (String × String × List String) :=
  ⟨String.ofList (contents form.title), form.branches.map BranchForm.texts⟩

end Form

def Branch.texts (branch : Branch) : String × String × List String :=
  ⟨branch.header, branch.message, branch.responses.map Response.text⟩

/-- What is shown of a dialogue: its title, and the header, the message and the responses of each branch. -/
def Dialogue.texts (dialogue : Dialogue) : String × List (String × String × List String) :=
  ⟨dialogue.title, dialogue.branches.map Branch.texts⟩

/-- A text without layout follows the grammar, and its strings are the texts of a dialogue. -/
def Documented (text : List Char) (dialogue : Dialogue) : Prop :=
  ∃ form : Form, spell form.tokens = text ∧ form.texts = dialogue.texts

variable {options : Options}

/-- The response is one string, rather than a string after empty ones or before text. -/
def ResponsePage.Regular (page : ResponsePage options) : Prop :=
  ∃ content closed, page.line = [.quoted content closed]

structure BranchPage.Regular (page : BranchPage options) : Prop where
  closing : page.closing = []
  responses : ∀ response ∈ page.responses, response.Regular

structure Page.Regular (page : Page options) : Prop where
  front : page.front = []
  branches : ∀ branch ∈ page.branches, branch.Regular

theorem ResponsePage.regular_of_tokens {page : ResponsePage options} {form : ResponseForm}
    (same : page.tokens ++ rest = form.tokens ++ more) : page.Regular ∧ rest = more := by
  have same : page.line.map .piece ++ .opens .commands :: (page.list ++ .closes .commands :: rest) =
      [Piece.quoted form.response form.closed].map .piece ++ .opens .commands ::
        (form.list ++ .closes .commands :: more) := by
    simpa [tokens_eq, ResponseForm.tokens, list] using same
  obtain ⟨line, -, inside⟩ := pieces_unique rfl rfl same
  obtain ⟨-, -, later⟩ := cut_unique page.inside form.inside rfl rfl inside
  exact ⟨⟨_, _, line⟩, later⟩

theorem ResponseForm.tokens_ne (form : ResponseForm) (closing : List Piece) :
    form.tokens ++ rest ≠ closing.map .piece ++ .closes .branch :: more := by
  intro equal
  have equal : [Piece.quoted form.response form.closed].map .piece ++ .opens .commands ::
      (form.list ++ .closes .commands :: rest) = closing.map .piece ++ .closes .branch :: more := by
    simpa [tokens] using equal
  obtain ⟨-, impossible, -⟩ := pieces_unique rfl rfl equal
  cases impossible

theorem BranchPage.regular_of_tokens {page : BranchPage options} {form : BranchForm}
    (same : page.tokens ++ rest = form.tokens ++ more) : page.Regular ∧ rest = more := by
  rw [tokens_eq] at same
  have same : page.responses.flatMap ResponsePage.tokens ++
      (page.closing.map .piece ++ .closes .branch :: rest) =
        form.responses.flatMap ResponseForm.tokens ++ ([].map .piece ++ .closes .branch :: more) := by
    injection same with _ same
    injection same with _ same
    injection same with _ same
    simpa using same
  obtain ⟨responses, closed⟩ := forall_of_flatMap (fun _ _ _ _ => ResponsePage.regular_of_tokens)
    (fun response _ => response.tokens_ne []) (fun response _ => response.tokens_ne _) same
  obtain ⟨closing, -, later⟩ := pieces_unique rfl rfl closed
  exact ⟨⟨closing, responses⟩, later⟩

theorem Page.regular_of_tokens {page : Page options} {form : Form} (same : page.tokens = form.tokens) :
    page.Regular := by
  rw [tokens_eq] at same
  change _ = [].map Token.piece ++ form.tokens at same
  obtain ⟨front, -, inside⟩ := pieces_unique rfl rfl same
  obtain ⟨-, -, later⟩ := pieces_unique rfl rfl inside
  have begins : ∀ (branch : BranchPage options) (rest : List Token), branch.tokens ++ rest ≠ [] := by
    simp [BranchPage.tokens]
  have starts : ∀ (branch : BranchForm) (rest : List Token), branch.tokens ++ rest ≠ [] := by
    simp [BranchForm.tokens]
  obtain ⟨branches, -⟩ := forall_of_flatMap (fun _ _ _ _ => BranchPage.regular_of_tokens) begins starts
    (congrArg (· ++ []) later)
  exact ⟨front, branches⟩

/-- Parts that can be written in another way one by one can all be written so. -/
theorem exists_flatMap {first : α → List γ} {second : β → List γ} {said : α → δ} {read : β → δ}
    {items : List α} (each : ∀ item ∈ items, ∃ other, second other = first item ∧ read other = said item) :
    ∃ others : List β, others.flatMap second = items.flatMap first ∧ others.map read = items.map said := by
  induction items with
  | nil => exact ⟨[], rfl, rfl⟩
  | cons item items ih =>
    obtain ⟨other, written, spoken⟩ := each item List.mem_cons_self
    obtain ⟨others, all, texts⟩ := ih fun item member => each item (List.mem_cons_of_mem _ member)
    exact ⟨other :: others, by simp [written, all], by simp [spoken, texts]⟩

theorem ResponsePage.Regular.form {page : ResponsePage options} (regular : page.Regular) :
    ∃ form : ResponseForm, form.tokens = page.tokens ∧
      String.ofList form.response = page.response.text := by
  obtain ⟨content, closed, line⟩ := regular
  refine ⟨⟨content, page.list, closed, page.inside⟩, ?_, ?_⟩
  · simp [ResponseForm.tokens, tokens, ResponseStart.tokens, line, list]
  · simp [ResponseStart.response, line]

theorem BranchPage.Regular.form {page : BranchPage options} (regular : page.Regular) :
    ∃ form : BranchForm, form.tokens = page.tokens ∧ form.texts = page.branch.texts := by
  obtain ⟨closing, responses⟩ := regular
  obtain ⟨forms, written, texts⟩ := exists_flatMap fun response member => (responses response member).form
  have answered : forms ≠ [] := by
    rintro rfl
    exact page.answered (by simpa using texts.symm)
  refine ⟨⟨page.header, page.message, forms, page.headerClosed, page.messageClosed, answered⟩, ?_, ?_⟩
  · simp [BranchForm.tokens, tokens, BranchStart.tokens, written, closing]
  · simp [BranchForm.texts, Branch.texts, BranchStart.branch, texts, Function.comp_def]

/-- A page follows the grammar, with its own texts, exactly when it is regular. -/
theorem Page.documented_iff (page : Page options) : Documented page.text page.dialogue ↔ page.Regular := by
  constructor
  · rintro ⟨form, written, _⟩
    exact regular_of_tokens (spell_injective written).symm
  · rintro ⟨front, branches⟩
    obtain ⟨forms, written, texts⟩ := exists_flatMap fun branch member => (branches branch member).form
    have inhabited : forms ≠ [] := by
      rintro rfl
      exact page.inhabited (by simpa using texts.symm)
    refine ⟨⟨page.title, forms, inhabited⟩, ?_, ?_⟩
    · rw [text, tokens_eq, front, Form.tokens, written]
      rfl
    · simp [Form.texts, Dialogue.texts, dialogue, texts, Function.comp_def]

def unquotedPage : Page (.ofNames [] false) where
  front := []
  title := [.plain 'T' rfl]
  mute := rfl
  visible := ⟨'T', by decide⟩
  inhabited := List.cons_ne_nil _ _
  branches := [{
    header := ['a']
    message := ['b']
    headerClosed := by decide
    messageClosed := by decide
    named := List.cons_ne_nil _ _
    unreserved := by decide
    answered := List.cons_ne_nil _ _
    closing := []
    mute := rfl
    responses := [{
      line := [.quoted ['c'] (by decide), .plain 'x' rfl]
      commands := []
      leading := (leading_nil.snoc (.inr rfl)).snoc (.inl rfl)
      spoken := List.cons_ne_nil _ _
      trailing := []
      silent := rfl }] }]

def unquotedSource : String := "[T]\x7b\"a\"\"b\"\"c\"x()\x7d"

theorem text_unquotedPage :
    unquotedPage.text = Source.text (Source.strip unquotedSource.toList) := by decide +kernel

theorem compile_unquotedSource :
    compile (.ofNames [] false) unquotedSource = .ok unquotedPage.dialogue :=
  (compile_ok_iff _ _ _).mpr ⟨rfl, ⟨unquotedPage, text_unquotedPage, rfl⟩, nofun⟩

/-- Whatever compiles is one page, taken apart in one way, and the dialogue is what this page spells. It
follows the documented grammar exactly when the page is regular. -/
theorem compile_sound (compiled : compile options source = .ok dialogue) :
    ∃ page : Page options, page.text = Source.text (Source.strip source.toList) ∧
      page.dialogue = dialogue ∧
      (∀ other : Page options, other.text = Source.text (Source.strip source.toList) → other = page) ∧
      (Documented (Source.text (Source.strip source.toList)) dialogue ↔ page.Regular) := by
  obtain ⟨_, ⟨page, same, rfl⟩, _⟩ := (compile_ok_iff options source dialogue).mp compiled
  refine ⟨page, same, rfl, ?_, ?_⟩
  · intro other equal
    exact Page.eq_of_text (equal.trans same.symm)
  · rw [← same]
    exact page.documented_iff

theorem compile_sound_unquoted :
    compile (.ofNames [] false) unquotedSource = .ok unquotedPage.dialogue ∧
      ∃ page : Page (.ofNames [] false),
        page.text = Source.text (Source.strip unquotedSource.toList) ∧
        page.dialogue = unquotedPage.dialogue ∧
        (∀ other : Page (.ofNames [] false),
          other.text = Source.text (Source.strip unquotedSource.toList) → other = page) ∧
        (Documented (Source.text (Source.strip unquotedSource.toList)) unquotedPage.dialogue ↔
          page.Regular) :=
  ⟨compile_unquotedSource, compile_sound compile_unquotedSource⟩

/-- Not every source that compiles follows the grammar. -/
theorem compile_not_documented :
    ¬ ∀ (options : Options) (source : String) (dialogue : Dialogue),
      compile options source = .ok dialogue →
        Documented (Source.text (Source.strip source.toList)) dialogue := by
  intro always
  have documented := always _ _ _ compile_unquotedSource
  rw [← text_unquotedPage, Page.documented_iff] at documented
  obtain ⟨_, responses⟩ := documented.branches _ List.mem_cons_self
  obtain ⟨content, closed, line⟩ := responses _ List.mem_cons_self
  simp at line

end Parley
