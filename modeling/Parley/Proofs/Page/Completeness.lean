import Parley.Proofs.Compile.CountAgreement
import Parley.Proofs.Page.Pieces

namespace Parley

/-- A text that closes what is open around its start and counts what is to come there. -/
structure Source.Tallied (scope : Option Region) (text : List Char) (counts : Counts) : Prop where
  closes : Balanced scope false text
  counted : tally false text = counts

namespace Source.Tallied

theorem nil : Tallied none [] [] := ⟨.done, rfl⟩

theorem turn (turn : Region.Turn scope c after) (later : Tallied after rest counts) :
    Tallied scope (c :: rest) (counts.precede c) :=
  ⟨.outside turn later.closes, by rw [tally_outside turn.ne_quote, later.counted]⟩

theorem piece (later : Tallied scope rest counts) (part : Piece) :
    Tallied scope (part.written ++ rest) counts := by
  cases part with
  | plain c free => exact ⟨(balanced_plain free).mpr later.closes, by
      rw [Piece.written, List.singleton_append, tally_outside (ne_quote_of_free free),
        Counts.precede_plain free, later.counted]⟩
  | quoted content closed =>
    exact ⟨(balanced_string closed).mpr later.closes, (tally_string closed rest).trans later.counted⟩

theorem pieces (later : Tallied scope rest counts) (parts : List Piece) :
    Tallied scope (spell (parts.map .piece) ++ rest) counts := by
  induction parts with
  | nil => exact later
  | cons part parts ih => simpa [Token.written] using ih.piece part

end Source.Tallied

variable {options : Options}

section Tallied

open Source (Tallied)

theorem CommandPage.tallied (page : CommandPage options)
    (later : Tallied (some .commands) rest ((waiting :: row) :: counts)) :
    Tallied (some .commands) (spell page.tokens ++ rest) (((waiting + 1) :: row) :: counts) := by
  have ends : Tallied (some .commands) (';' :: rest) (((waiting + 1) :: row) :: counts) :=
    .turn .endCommand later
  have argued := (ends.pieces page.argument).piece .space
  simpa [CommandPage.tokens, CommandStart.tokens, Token.written] using argued.pieces page.name

theorem tallied_commands (commands : List (CommandPage options))
    (later : Tallied (some .commands) rest ((waiting :: row) :: counts)) :
    Tallied (some .commands) (spell (commands.flatMap CommandPage.tokens) ++ rest)
      (((commands.length + waiting) :: row) :: counts) := by
  induction commands with
  | nil => simpa using later
  | cons page commands ih =>
    have first := page.tallied ih
    have sum : commands.length + 1 + waiting = commands.length + waiting + 1 := by omega
    simpa [sum] using first

theorem ResponsePage.tallied (page : ResponsePage options)
    (later : Tallied (some .branch) rest (row :: counts)) :
    Tallied (some .branch) (spell page.tokens ++ rest) ((page.commands.length :: row) :: counts) := by
  have closed : Tallied (some .commands) (')' :: rest) ((0 :: row) :: counts) := .turn .closeList later
  have filled := tallied_commands page.commands (closed.pieces page.trailing)
  have opened : Tallied (some .branch) ('(' :: _) ((page.commands.length :: row) :: counts) :=
    .turn .openList filled
  simpa [ResponsePage.tokens, ResponseStart.tokens, Token.written, Region.opener, Region.closer] using opened.pieces page.line

theorem tallied_responses (responses : List (ResponsePage options))
    (later : Tallied (some .branch) rest (row :: counts)) :
    Tallied (some .branch) (spell (responses.flatMap ResponsePage.tokens) ++ rest)
      ((responses.map (fun page => page.commands.length) ++ row) :: counts) := by
  induction responses with
  | nil => simpa using later
  | cons page responses ih => simpa using page.tallied ih

theorem BranchPage.tallied (page : BranchPage options) (later : Tallied none rest counts) :
    Tallied none (spell page.tokens ++ rest) (page.branch.counts :: counts) := by
  have closed : Tallied (some .branch) ('}' :: rest) ([] :: counts) := .turn .closeBranch later
  have answered := tallied_responses page.responses (closed.pieces page.closing)
  have messaged := answered.piece (.quoted page.message page.messageClosed)
  have opened := Tallied.turn .openBranch (messaged.piece (.quoted page.header page.headerClosed))
  rw [Counts.precede_of_mem (by simp)] at opened
  simpa [BranchPage.tokens, BranchStart.tokens, Token.written, Region.opener, Region.closer,
    BranchStart.branch, Branch.counts, ResponseStart.response, Function.comp_def] using opened

theorem tallied_branches (branches : List (BranchPage options)) :
    Tallied none (spell (branches.flatMap BranchPage.tokens))
      (branches.map fun page => page.branch.counts) := by
  induction branches with
  | nil => exact .nil
  | cons page branches ih => simpa using page.tallied ih

theorem Page.tallied (page : Page options) : Tallied none page.text page.dialogue.counts := by
  have closed := Tallied.turn .closeTitle (tallied_branches page.branches)
  rw [Counts.precede_of_mem (by simp)] at closed
  have opened := Tallied.turn .openTitle (closed.pieces page.title)
  rw [Counts.precede_of_mem (by simp)] at opened
  simpa [Page.text, PageStart.tokens, Token.written, Region.opener, Region.closer, Page.dialogue,
    Dialogue.counts, Function.comp_def] using opened.pieces page.front

end Tallied

namespace Draft

variable {total : Counts}

/-- Tokens that a draft takes one after the other, and what they leave of it. -/
def Takes (options : Options) (total : Counts) (draft : Draft) (tokens : List Token) (last : Draft) :
    Prop :=
  tokens.foldlM (take? options total) draft = some last

theorem Takes.trans (first : Takes options total draft front middle)
    (second : Takes options total middle back last) : Takes options total draft (front ++ back) last := by
  unfold Takes at *
  rw [List.foldlM_append, first]
  exact second

theorem Takes.single {token : Token} (taken : take? options total draft token = some next) :
    Takes options total draft [token] next := by
  simpa [Takes] using taken

theorem takes_pieces (state : List Piece → Draft) {whole : List Piece}
    (each : ∀ front part back, whole = front ++ part :: back →
      take? options total (state front) (.piece part) = some (state (front ++ [part]))) :
    Takes options total (state []) (whole.map .piece) (state whole) := by
  suffices onwards : ∀ front back, whole = front ++ back →
      Takes options total (state front) (back.map .piece) (state whole) from onwards [] whole rfl
  intro front back same
  induction back generalizing front with
  | nil =>
    rw [List.append_nil] at same
    rw [same]
    rfl
  | cons part back ih =>
    exact (Takes.single (each front part back same)).trans (ih (front ++ [part]) (by simpa using same))

variable {title : String} {branches : List Branch} {counts : Counts} {branch : BranchDraft}
  {list : ListDraft}

theorem takes_name {name : List Piece} (unbroken : .space ∉ voiced name) :
    Takes options total ⟨false, .empty, .body title branches counts (.commands branch list)⟩
      (name.map .piece)
      ⟨false, .of (contents (voiced name)), .body title branches counts (.commands branch list)⟩ := by
  refine takes_pieces (fun front => ⟨false, .of (contents (voiced front)), _⟩) ?_
  intro front part back same
  refine take?_name ?_ title branches counts branch list
  by_cases none : voiced front = []
  · exact .inr none
  · left
    rintro rfl
    apply unbroken
    have begun : (front.dropWhile Piece.isSilent).isEmpty = false := by simpa [voiced] using none
    simp [same, voiced, List.dropWhile_append, begun]

theorem takes_trailing {trailing : List Piece} (silent : voiced trailing = []) :
    Takes options total ⟨false, .empty, .body title branches counts (.commands branch list)⟩
      (trailing.map .piece)
      ⟨false, .empty, .body title branches counts (.commands branch list)⟩ := by
  have unbroken : .space ∉ voiced trailing := by simp [silent]
  have named : Takes options total
      ⟨false, .empty, .body title branches counts (.commands branch list)⟩ (trailing.map .piece)
      ⟨false, .of (contents (voiced trailing)), .body title branches counts (.commands branch list)⟩ :=
    takes_name unbroken
  rwa [silent] at named

theorem takes_command (page : CommandPage options) (room : list.directives.length ≠ list.counted) :
    Takes options total ⟨false, .empty, .body title branches counts (.commands branch list)⟩ page.tokens
      ⟨false, .empty, .body title branches counts
        (.commands branch { list with directives := page.directive :: list.directives })⟩ := by
  have separated : take? options total
      ⟨false, .of (contents (voiced page.name)), .body title branches counts (.commands branch list)⟩
      (.piece .space) =
        some ⟨false, .empty, .body title branches counts (.argument branch list page.command)⟩ :=
    (take?_space page.begun title branches counts branch list).trans (by rw [page.known]; rfl)
  have argued : Takes options total
      ⟨false, .empty, .body title branches counts (.argument branch list page.command)⟩
      (page.argument.map .piece)
      ⟨false, .argument page.argument, .body title branches counts (.argument branch list page.command)⟩ :=
    takes_pieces (fun front => ⟨false, .argument front, _⟩) fun front part _ _ =>
      take?_argument front part title branches counts branch list page.command
  have ended : take? options total
      ⟨false, .argument page.argument, .body title branches counts (.argument branch list page.command)⟩
      .ends = some ⟨false, .empty, .body title branches counts
        (.commands branch { list with directives := page.directive :: list.directives })⟩ := by
    simp [take?_eq, endCommand, room, Buffer.trimmed_argument, CommandPage.directive]
  exact (((takes_name page.unbroken).trans (.single separated)).trans argued).trans (.single ended)

theorem takes_commands (commands : List (CommandPage options))
    (room : list.directives.length + commands.length ≤ list.counted) :
    Takes options total ⟨false, .empty, .body title branches counts (.commands branch list)⟩
      (commands.flatMap CommandPage.tokens)
      ⟨false, .empty, .body title branches counts (.commands branch { list with
        directives := (commands.map CommandPage.directive).reverse ++ list.directives })⟩ := by
  induction commands generalizing list with
  | nil => rfl
  | cons page commands ih =>
    rw [List.length_cons] at room
    have later : (page.directive :: list.directives).length + commands.length ≤ list.counted := by
      rw [List.length_cons]
      omega
    rw [List.map_cons, List.reverse_cons, List.append_assoc]
    exact (takes_command page (by omega)).trans
      (@ih { list with directives := page.directive :: list.directives } later)

theorem takes_line {line : List Piece} (leading : Leading line) :
    Takes options total ⟨false, .empty, .body title branches counts (.responses branch)⟩
      (line.map .piece)
      ⟨false, .of (contents line), .body title branches counts (.responses branch)⟩ := by
  refine takes_pieces (fun front => ⟨false, .of (contents front), _⟩) ?_
  intro front part back same
  refine take?_line ?_ title branches counts branch
  cases part with
  | plain c free => exact .inl rfl
  | quoted content closed => exact .inr (leading front content closed back same)

theorem takes_response (page : ResponsePage options) {done : List Response} :
    Takes options total ⟨false, .empty, .body title branches counts
        (.responses ⟨header, message, done, page.commands.length :: later⟩)⟩ page.tokens
      ⟨false, .empty, .body title branches counts
        (.responses ⟨header, message, page.response :: done, later⟩)⟩ := by
  let rest : BranchDraft := ⟨header, message, done, later⟩
  let opening : ListDraft := ⟨String.ofList (contents page.line), [], page.commands.length⟩
  let filled := { opening with directives := (page.commands.map CommandPage.directive).reverse ++ [] }
  have opened : take? options total ⟨false, .of (contents page.line), .body title branches counts
      (.responses ⟨header, message, done, page.commands.length :: later⟩)⟩ (.opens .commands) =
        some ⟨false, .empty, .body title branches counts (.commands rest opening)⟩ := by
    simp [take?_eq, openList, page.spoken, rest, opening]
  have commanded : Takes options total ⟨false, .empty, .body title branches counts (.commands rest opening)⟩
      (page.commands.flatMap CommandPage.tokens)
      ⟨false, .empty, .body title branches counts (.commands rest filled)⟩ :=
    takes_commands page.commands (by simp [opening])
  have closed : take? options total ⟨false, .empty, .body title branches counts (.commands rest filled)⟩
      (.closes .commands) = some ⟨false, .empty, .body title branches counts
        (.responses ⟨header, message, page.response :: done, later⟩)⟩ := by
    simp [take?_eq, closeList, rest, filled, opening, ResponseStart.response]
  have inside := (commanded.trans (takes_trailing page.silent)).trans (.single closed)
  simpa [ResponsePage.tokens, ResponseStart.tokens] using
    ((takes_line page.leading).trans (.single opened)).trans inside

theorem takes_responses (responses : List (ResponsePage options)) {done : List Response} :
    Takes options total ⟨false, .empty, .body title branches counts (.responses
        ⟨header, message, done, responses.map (fun page => page.commands.length) ++ later⟩)⟩
      (responses.flatMap ResponsePage.tokens)
      ⟨false, .empty, .body title branches counts (.responses
        ⟨header, message, (responses.map fun page => page.response).reverse ++ done, later⟩)⟩ := by
  induction responses generalizing done with
  | nil => rfl
  | cons page responses ih =>
    rw [List.map_cons, List.map_cons, List.reverse_cons, List.append_assoc]
    exact (takes_response page).trans ih

theorem takes_branch (page : BranchPage options) (counts : Counts) :
    Takes options total ⟨false, .empty, .body title branches (page.branch.counts :: counts) (.between false)⟩
      page.tokens ⟨false, .empty, .body title (page.branch :: branches) counts (.between false)⟩ := by
  let stage := Stage.body title branches (page.branch.counts :: counts)
  let header := String.ofList page.header
  let message := String.ofList page.message
  have opened : take? options total ⟨false, .empty, stage (.between false)⟩ (.opens .branch) =
      some ⟨false, .empty, stage (.header false)⟩ := by
    simp [take?_eq, openBranch, stage]
  have named : take? options total ⟨false, .empty, stage (.header false)⟩
      (.piece (.quoted page.header page.headerClosed)) =
        some ⟨false, .empty, stage (.message false header)⟩ := by
    simp [take?_eq, quote?, stage, page.named, page.unreserved, header]
  have messaged : take? options total ⟨false, .empty, stage (.message false header)⟩
      (.piece (.quoted page.message page.messageClosed)) = some ⟨false, .empty, stage (.responses
        ⟨header, message, [], page.responses.map (fun page => page.commands.length) ++ []⟩)⟩ := by
    simp [take?_eq, quote?, stage, message, BranchStart.branch, Branch.counts, ResponseStart.response,
      Function.comp_def]
  have trailed : Takes options total ⟨false, .empty, stage (.responses ⟨header, message,
      (page.responses.map fun page => page.response).reverse ++ [], []⟩)⟩ (page.closing.map .piece)
      ⟨false, .of (contents page.closing), _⟩ :=
    takes_line (leading_of_mute page.mute)
  have closed : take? options total ⟨false, .of (contents page.closing), stage (.responses ⟨header, message,
      (page.responses.map fun page => page.response).reverse ++ [], []⟩)⟩ (.closes .branch) =
        some ⟨false, .empty, .body title (page.branch :: branches) counts (.between false)⟩ := by
    simp [take?_eq, closeBranch, stage, page.mute, page.answered, BranchStart.branch, header, message]
  have headed := ((Takes.single opened).trans (.single named)).trans (.single messaged)
  exact ((headed.trans (takes_responses page.responses)).trans trailed).trans (.single closed)

theorem takes_branches (pages : List (BranchPage options)) :
    Takes options total
      ⟨false, .empty, .body title branches (pages.map fun page => page.branch.counts) (.between false)⟩
      (pages.flatMap BranchPage.tokens)
      ⟨false, .empty, .body title ((pages.map fun page => page.branch).reverse ++ branches) []
        (.between false)⟩ := by
  induction pages generalizing branches with
  | nil => rfl
  | cons page pages ih =>
    rw [List.map_cons, List.map_cons, List.reverse_cons, List.append_assoc]
    exact (takes_branch page _).trans ih

theorem takes_page (page : Page options) :
    Takes options page.dialogue.counts .start page.tokens ⟨false, .empty, .body (String.ofList (contents page.title))
      (page.branches.map fun page => page.branch).reverse [] (.between false)⟩ := by
  let title := contents page.title
  let counts := page.branches.map fun page => page.branch.counts
  have fronted : Takes options page.dialogue.counts .start (page.front.map .piece)
      ⟨false, .of (contents page.front), .title false⟩ :=
    takes_pieces (fun front => ⟨false, .of (contents front), .title false⟩) fun front part _ _ =>
      take?_title front part false
  have opened : take? options page.dialogue.counts ⟨false, .of (contents page.front), .title false⟩
      (.opens .title) = some ⟨false, .of (contents []), .title true⟩ := by
    simp [take?_eq, openTitle, page.mute]
  have titled : Takes options page.dialogue.counts ⟨false, .of (contents []), .title true⟩
      (page.title.map .piece) ⟨false, .of title, .title true⟩ :=
    takes_pieces (fun front => ⟨false, .of (contents front), .title true⟩) fun front part _ _ =>
      take?_title front part true
  have closed : take? options page.dialogue.counts ⟨false, .of title, .title true⟩ (.closes .title) =
      some ⟨false, .empty, .body (String.ofList title) [] counts (.between false)⟩ := by
    have visible : ¬(contents page.title).all Text.isBlank = true := by simpa using page.visible
    simp [take?_eq, closeTitle, title, visible, counts, Page.dialogue, Dialogue.counts, Function.comp_def]
  have headed := ((fronted.trans (.single opened)).trans titled).trans (.single closed)
  simpa [PageStart.tokens] using headed.trans (takes_branches page.branches)

end Draft

/-- The text of a page is balanced, counted and built, and gives the dialogue that the page spells. -/
theorem Page.build {marks : List Mark} (page : Page options) (same : page.text = Source.text marks) :
    Source.Balanced none false (Source.text marks) ∧
      ∃ counts, Source.count (Source.text marks) = .ok counts ∧
        Parley.build options counts marks = .ok page.dialogue := by
  have tallied := page.tallied
  rw [same] at tallied
  refine ⟨tallied.closes, page.dialogue.counts, ?_, ?_⟩
  · rw [Source.count_of_balanced tallied.closes, tallied.counted]
  · refine (build_ok_iff same.symm _).mpr ⟨_, Draft.takes_page page, ?_⟩
    simpa [Draft.finish] using page.ofBranches?_dialogue

end Parley
