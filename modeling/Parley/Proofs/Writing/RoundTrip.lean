import Parley.Proofs.Page.Language
import Parley.Proofs.Page.Plain
import Parley.Proofs.Source.Layout
import Parley.Proofs.Writing.Basic

/-! Compiling undoes writing: without its layout a written source is the text of a page that spells the
dialogue. In a command list the layout stays, and becomes pieces that say nothing. -/

namespace Parley

namespace Layout

theorem keep_gap {gap : List Char} (blank : ∀ c ∈ gap, Text.isBlank c = true) (rest : List Char) :
    start.keep (gap ++ rest) = start.keep rest := by
  induction gap with
  | nil => rfl
  | cons c gap ih =>
    obtain ⟨first, later⟩ := List.forall_mem_cons.mp blank
    rw [List.cons_append, keep, after_free (isDelimiter_of_isBlank first), if_neg (by simp [keeps, start, first])]
    exact ih later

theorem keep_string {content : List Char} (closed : '"' ∉ content) (region : Option Region)
    (rest : List Char) :
    keep ⟨false, region⟩ ('"' :: (content ++ ['"']) ++ rest) =
      '"' :: (content ++ ['"']) ++ keep ⟨false, region⟩ rest := by
  have inside : keep ⟨true, region⟩ (content ++ '"' :: rest) =
      content ++ '"' :: keep ⟨false, region⟩ rest := by
    induction content with
    | nil => rfl
    | cons c content ih =>
      obtain ⟨unquoted, closed⟩ := List.ne_and_not_mem_of_not_mem_cons closed
      rw [List.cons_append, keep, after_inside (Ne.symm unquoted), ih closed]
      rfl
  have kept : keeps ⟨false, region⟩ '"' = true := by
    cases region <;> rfl
  rw [List.cons_append, keep, kept, if_pos rfl, List.append_assoc]
  simpa [after] using inside

theorem keep_quote {text : String} (quotable : Quotable text) (rest : List Char) :
    start.keep (quote text ++ rest) = quote text ++ start.keep rest :=
  keep_string quotable none rest

/-- Layout counts in a title and in a command list. -/
theorem keep_inside {region : Region} {tokens : List Token}
    (inside : ∀ token ∈ tokens, token.isInside = true) (rest : List Char) :
    keep ⟨false, some region⟩ (spell tokens ++ rest) =
      spell tokens ++ keep ⟨false, some region⟩ rest := by
  induction tokens with
  | nil => rfl
  | cons token tokens ih =>
    obtain ⟨first, later⟩ := List.forall_mem_cons.mp inside
    rw [spell_cons, List.append_assoc, List.append_assoc, ← ih later]
    match token with
    | .piece (.plain c free) =>
      change keep _ (c :: _) = c :: keep _ _
      rw [keep, after_free free]
      rfl
    | .piece (.quoted content closed) => exact keep_string closed (some region) _
    | .ends => rfl

/-- Nothing that lies around responses changes what counts. -/
theorem keep_open (rest : List Char) : start.keep ('{' :: rest) = '{' :: start.keep rest := rfl

theorem keep_close (rest : List Char) : start.keep ('}' :: rest) = '}' :: start.keep rest := rfl

end Layout

variable {options : Options}

theorem forall_of_all {p : Char → Prop} [DecidablePred p] {text : List Char}
    (all : text.all (fun c => decide (p c)) = true) : ∀ c ∈ text, p c := by
  simpa using all

/-- Names of commands can be written, and are found again. -/
theorem Command.Known.name {command : Command} (valid : options.check = .ok ())
    (known : command.Known options) :
    options.command? command.name = some command ∧ command.name ≠ "" ∧
      ∀ c ∈ command.name.toList, Text.isBlank c = false ∧ isDelimiter c = false := by
  cases command with
  | goto => exact ⟨rfl, by decide, forall_of_all rfl⟩
  | become => exact ⟨rfl, by decide, forall_of_all rfl⟩
  | exit => exact ⟨rfl, by decide, forall_of_all rfl⟩
  | host name =>
    have known : name ∈ options.hostCommands := known
    have sound : Options.nameFault? name = none := options.check_ok_iff.mp valid name known
    unfold Options.nameFault? at sound
    split at sound
    · cases sound
    · rename_i foreign
      split at sound
      · cases sound
      · rename_i writable
        have foreign : Command.builtin? name = none := by simpa using foreign
        simp only [Bool.or_eq_true, not_or, List.any_eq_true, not_exists, not_and, Bool.not_eq_true] at writable
        refine ⟨by simp [Options.command?, Command.name, foreign, known], ?_, ?_⟩
        · intro empty
          exact absurd writable.1 (by simp_all [Command.name])
        · exact writable.2

theorem ArgumentWord.pieces {argument : String} {word : List Char} (written : ArgumentWord argument word)
    (quotable : Quotable argument) :
    ∃ pieces : List Piece, spell (pieces.map .piece) = word ∧
      String.ofList (argumentText pieces) = argument := by
  have closed : '"' ∉ argument.toList := quotable
  cases written with
  | quoted => exact ⟨[.quoted argument.toList closed], by simp [quote], by simp⟩
  | bare free trimmed =>
    exact ⟨plains argument.toList free, by simp, by simp [argumentText_plains free trimmed]⟩

theorem Laid.split {word : List Char} (laid : Laid (word :: words) text) :
    ∃ (gap rest : List Char) (_ : ∀ c ∈ gap, isDelimiter c = false),
      (∀ c ∈ gap, Text.isBlank c = true) ∧ text = gap ++ (word ++ rest) ∧ Laid words rest := by
  cases laid with
  | @cons gap _ rest _ blank later =>
    exact ⟨gap, rest, fun c member => isDelimiter_of_isBlank (blank c member), blank, by simp, later⟩

theorem laid_directive {directive : Directive} (valid : options.check = .ok ())
    (known : directive.command.Known options) (quotable : Quotable directive.argument)
    (argument : ArgumentWord directive.argument word)
    (laid : Laid ((directive.command.name.toList ++ [' ']) :: word :: [';'] :: words) text) :
    ∃ (page : CommandPage options) (rest : List Char), page.directive = directive ∧
      text = spell page.tokens ++ rest ∧ Laid words rest := by
  obtain ⟨found, begun, visible⟩ := known.name valid
  have free : ∀ c ∈ directive.command.name.toList, isDelimiter c = false :=
    fun c member => (visible c member).2
  obtain ⟨pieces, spelled, said⟩ := argument.pieces quotable
  obtain ⟨before, _, unmarked, front, rfl, named⟩ := laid.split
  obtain ⟨middle, _, unnamed, between, rfl, argued⟩ := named.split
  obtain ⟨after, rest, unended, back, rfl, later⟩ := argued.split
  have voices : voiced (plains before unmarked ++ plains _ free) = plains _ free := by
    rw [voiced_gap (isGap_of_mem_plains front _)]
    refine voiced_plains free ?_
    cases name : directive.command.name.toList with
    | nil => rfl
    | cons c later =>
      have first := (visible c (by simp [name])).1
      simp [first]
  refine ⟨⟨⟨plains before unmarked ++ plains _ free, directive.command, ?_, ?_, ?_⟩,
    plains middle unnamed ++ pieces ++ plains after unended⟩, rest, ?_, ?_, later⟩
  · rw [voices]
    simpa [plains] using begun
  · rw [voices]
    intro broken
    obtain ⟨c, member, same⟩ := List.mem_pmap.mp broken
    injection same with same
    subst same
    exact absurd (visible _ member).1 (by decide)
  · rw [voices, contents_plains, String.ofList_toList, found]
  · rw [CommandPage.directive, argumentText_laid pieces (isGap_of_mem_plains between _)
      (isGap_of_mem_plains back _), said]
  · simp [CommandPage.tokens, CommandStart.tokens, spelled, Token.written, Piece.written, Piece.space]

theorem laid_directives {directives : List Directive} (valid : options.check = .ok ())
    (known : ∀ directive ∈ directives, directive.command.Known options)
    (quotable : ∀ directive ∈ directives, Quotable directive.argument)
    (written : DirectiveWords directives list) (laid : Laid (list ++ words) text) :
    ∃ (pages : List (CommandPage options)) (rest : List Char),
      pages.map CommandPage.directive = directives ∧
        text = spell (pages.flatMap CommandPage.tokens) ++ rest ∧ Laid words rest := by
  induction written generalizing text with
  | nil => exact ⟨[], text, rfl, rfl, laid⟩
  | cons argument _ ih =>
    obtain ⟨first, others⟩ := List.forall_mem_cons.mp known
    obtain ⟨closed, remaining⟩ := List.forall_mem_cons.mp quotable
    obtain ⟨page, _, rfl, rfl, following⟩ := laid_directive valid first closed argument laid
    obtain ⟨pages, rest, rfl, rfl, later⟩ := ih others remaining following
    exact ⟨page :: pages, rest, rfl, by simp, later⟩

theorem laid_response {response : Response} (valid : options.check = .ok ())
    (formed : response.WellFormed options) (written : DirectiveWords response.directives list)
    (laid : Laid (quote response.text :: ['('] :: (list ++ [')'] :: words)) text) :
    ∃ (page : ResponsePage options) (rest : List Char), page.response = response ∧
      Layout.start.keep text = spell page.tokens ++ Layout.start.keep rest ∧ Laid words rest := by
  have closed : '"' ∉ response.text.toList := formed.quotable
  have spoken : contents [.quoted response.text.toList closed] ≠ [] := by
    simpa using formed.spoken
  obtain ⟨_, _, _, front, rfl, said⟩ := laid.split
  obtain ⟨_, _, _, between, rfl, opened⟩ := said.split
  obtain ⟨commands, _, same, rfl, filled⟩ :=
    laid_directives valid formed.known formed.arguments written opened
  obtain ⟨trailing, rest, free, back, rfl, later⟩ := filled.split
  have silent : voiced (plains trailing free) = [] := by
    simpa [voiced] using voiced_gap (isGap_of_mem_plains back free) []
  let page : ResponsePage options :=
    ⟨⟨[.quoted response.text.toList closed], commands, leading_nil.snoc (.inr rfl), spoken⟩,
      plains trailing free, silent⟩
  refine ⟨page, rest, ?_, ?_, later⟩
  · simp [page, ResponseStart.response, same]
  · have listed : spell page.list = spell (commands.flatMap CommandPage.tokens) ++ trailing := by
      simp [page, ResponsePage.list]
    calc
      _ = quote response.text ++ '(' ::
          Layout.keep ⟨false, some .commands⟩ (spell page.list ++ ')' :: rest) := by
        rw [Layout.keep_gap front, Layout.keep_quote formed.quotable, Layout.keep_gap between, listed,
          List.append_assoc]
        rfl
      _ = quote response.text ++ '(' :: (spell page.list ++ ')' :: Layout.start.keep rest) := by
        rw [Layout.keep_inside page.inside]
        rfl
      _ = spell page.tokens ++ Layout.start.keep rest := by
        simp [page, ResponsePage.tokens, ResponseStart.tokens, ResponsePage.list, quote, Token.written,
          Piece.written, Region.opener, Region.closer]

theorem laid_responses {responses : List Response} (valid : options.check = .ok ())
    (formed : ∀ response ∈ responses, response.WellFormed options)
    (written : ResponseWords responses list) (laid : Laid (list ++ words) text) :
    ∃ (pages : List (ResponsePage options)) (rest : List Char),
      (pages.map fun page => page.response) = responses ∧
        Layout.start.keep text =
          spell (pages.flatMap ResponsePage.tokens) ++ Layout.start.keep rest ∧ Laid words rest := by
  induction written generalizing text with
  | nil => exact ⟨[], text, rfl, rfl, laid⟩
  | cons inside _ ih =>
    obtain ⟨first, others⟩ := List.forall_mem_cons.mp formed
    obtain ⟨page, _, rfl, kept, following⟩ := laid_response valid first inside (by simpa using laid)
    obtain ⟨pages, rest, rfl, all, later⟩ := ih others following
    exact ⟨page :: pages, rest, rfl, by simp [kept, all], later⟩

theorem laid_branch {branch : Branch} (valid : options.check = .ok ())
    (formed : branch.WellFormed options) (written : ResponseWords branch.responses list)
    (laid : Laid (['{'] :: quote branch.header :: quote branch.message :: (list ++ ['}'] :: words)) text) :
    ∃ (page : BranchPage options) (rest : List Char), page.branch = branch ∧
      Layout.start.keep text = spell page.tokens ++ Layout.start.keep rest ∧ Laid words rest := by
  obtain ⟨_, _, _, front, rfl, opened⟩ := laid.split
  obtain ⟨_, _, _, between, rfl, headed⟩ := opened.split
  obtain ⟨_, tail, _, beside, rfl, messaged⟩ := headed.split
  obtain ⟨responses, _, same, kept, answered⟩ := laid_responses valid formed.responses written messaged
  obtain ⟨_, rest, _, back, rfl, later⟩ := answered.split
  have some : responses ≠ [] := by
    rintro rfl
    exact formed.answered same.symm
  let page : BranchPage options :=
    ⟨⟨branch.header.toList, branch.message.toList, responses, formed.header, formed.message,
      by simpa using formed.named, by simpa using formed.unreserved⟩, [], some, rfl⟩
  refine ⟨page, rest, ?_, ?_, later⟩
  · simp [page, BranchStart.branch, same]
  · calc
      _ = '{' :: (quote branch.header ++ (quote branch.message ++
          Layout.start.keep tail)) := by
        rw [Layout.keep_gap front, List.singleton_append, Layout.keep_open, Layout.keep_gap between,
          Layout.keep_quote formed.header, Layout.keep_gap beside, Layout.keep_quote formed.message]
      _ = spell page.tokens ++ Layout.start.keep rest := by
        rw [kept, Layout.keep_gap back, List.singleton_append, Layout.keep_close]
        simp [page, BranchPage.tokens, BranchStart.tokens, quote, Token.written,
          Piece.written, Region.opener, Region.closer]

theorem laid_branches {branches : List Branch} (valid : options.check = .ok ())
    (formed : ∀ branch ∈ branches, branch.WellFormed options)
    (written : BranchWords branches words) (laid : Laid words text) :
    ∃ pages : List (BranchPage options), (pages.map fun page => page.branch) = branches ∧
      Layout.start.keep text = spell (pages.flatMap BranchPage.tokens) := by
  induction written generalizing text with
  | nil =>
    cases laid with
    | nil blank =>
      refine ⟨[], rfl, ?_⟩
      simpa [Layout.keep] using Layout.keep_gap blank []
  | cons inside _ ih =>
    obtain ⟨first, others⟩ := List.forall_mem_cons.mp formed
    obtain ⟨page, _, rfl, kept, following⟩ := laid_branch valid first inside laid
    obtain ⟨pages, rfl, all⟩ := ih others following
    exact ⟨page :: pages, rfl, by simp [kept, all]⟩

theorem TitleWord.pieces {title : String} {word : List Char} (written : TitleWord title word)
    (quotable : Quotable title) :
    ∃ pieces : List Piece, word = '[' :: (spell (pieces.map .piece) ++ [']']) ∧
      contents pieces = title.toList := by
  have closed : '"' ∉ title.toList := quotable
  cases written with
  | quoted =>
    refine ⟨[.quoted title.toList closed], ?_, by simp⟩
    simp [quote, Token.written, Piece.written]
  | bare free => exact ⟨plains title.toList free, by simp, by simp⟩

/-- The index of a dialogue says nothing that its branches do not say. -/
theorem Dialogue.eq_of_data {first second : Dialogue} (title : first.title = second.title)
    (branches : first.branches = second.branches) (active : first.active = second.active) :
    first = second := by
  obtain ⟨_, _, _, _, rfl⟩ := first
  obtain ⟨_, _, _, _, rfl⟩ := second
  cases title
  cases branches
  cases active
  rfl

/-- Without its layout a written source is the text of a page of the dialogue. -/
theorem page_of_written {dialogue : Dialogue} {source : String} (valid : options.check = .ok ())
    (formed : dialogue.WellFormed options) (written : dialogue.Written source) :
    ∃ page : Page options, page.text = Layout.start.keep source.toList ∧ page.dialogue = dialogue := by
  obtain ⟨word, words, title, branches, laid⟩ := written
  obtain ⟨pieces, rfl, said⟩ := title.pieces formed.title
  obtain ⟨gap, rest, _, front, spelled, later⟩ := laid.split
  obtain ⟨pages, same, kept⟩ := laid_branches valid formed.branches branches later
  have active := formed.active
  rw [← same] at active
  have inhabited : pages ≠ [] := by
    rintro rfl
    cases active
  let page : Page options := ⟨⟨[], pieces, pages, rfl, by simpa [said] using formed.visible⟩, inhabited⟩
  refine ⟨page, ?_, ?_⟩
  · have titled : Layout.keep ⟨false, some .title⟩ (spell (pieces.map .piece) ++ ']' :: rest) =
        spell (pieces.map .piece) ++ ']' :: Layout.start.keep rest :=
      Layout.keep_inside (by simp [Token.isInside]) _
    have opened : Layout.start.keep ('[' :: (spell (pieces.map .piece) ++ ']' :: rest)) =
        '[' :: Layout.keep ⟨false, some .title⟩ (spell (pieces.map .piece) ++ ']' :: rest) := rfl
    rw [spelled, Layout.keep_gap front, List.cons_append, List.append_assoc, List.singleton_append,
      opened, titled, kept]
    simp [page, Page.text, PageStart.tokens, Token.written, Region.opener, Region.closer]
  · refine Dialogue.eq_of_data ?_ same ?_
    · rw [Page.dialogue, said, String.ofList_toList]
    · rw [List.head?_eq_some_head (by simpa using inhabited)] at active
      simpa [Page.dialogue] using active

/-- Every dialogue that can be written is compiled from each of its writings. -/
theorem compile_written (valid : options.check = .ok ()) (lax : options.strict = false)
    {dialogue : Dialogue} (formed : dialogue.WellFormed options) {source : String}
    (written : dialogue.Written source) : compile options source = .ok dialogue := by
  refine (compile_ok_iff options source dialogue).mpr ⟨valid, ?_, ?_⟩
  · rw [Source.text_strip]
    exact page_of_written valid formed written
  · intro strict
    rw [lax] at strict
    cases strict

def songBranches : List Branch :=
  [⟨"a", "\x7b;", [⟨"go", [⟨.goto, "a b"⟩, ⟨.host "sing", "la ; la "⟩]⟩]⟩]

def songDialogue : Dialogue where
  title := "T"
  branches := songBranches
  active := "a"
  index := indexFrom 0 songBranches
  indexed := rfl

def songSource : String :=
  "\n[T] \x7b\"a\"\"\x7b;\"\n\"go\"(\n goto  a b; sing \"la ; la \" ;\n) \x7d "

theorem songDialogue_wellFormed : songDialogue.WellFormed (.ofNames ["sing"] false) where
  visible := ⟨'T', by decide⟩
  title := by decide
  active := rfl
  branches := by
    intro branch member
    obtain rfl := List.mem_singleton.mp member
    refine ⟨by decide, by decide, by decide, by decide, List.cons_ne_nil _ _, ?_⟩
    intro response member
    obtain rfl := List.mem_singleton.mp member
    refine ⟨by decide, by decide, ?_, ?_⟩
    · simp [Command.Known]
      decide
    · decide

/-- A text of gaps and words in turn is laid. -/
theorem laid_of_gaps {words : List (List Char)} (gaps : List (List Char)) (last : List Char)
    (blank : ∀ c ∈ gaps.flatten ++ last, Text.isBlank c = true) (length : gaps.length = words.length)
    (same : text = (List.zipWith (· ++ ·) gaps words).flatten ++ last) : Laid words text := by
  subst same
  induction words generalizing gaps with
  | nil =>
    rw [List.length_eq_zero_iff.mp length] at blank ⊢
    exact .nil blank
  | cons word words ih =>
    cases gaps with
    | nil => cases length
    | cons gap gaps =>
      rw [List.flatten_cons, List.append_assoc] at blank
      obtain ⟨first, later⟩ := List.forall_mem_append.mp blank
      rw [List.zipWith_cons_cons, List.flatten_cons, List.append_assoc]
      exact .cons first (ih gaps later (Nat.succ.inj length))

theorem songDialogue_written : songDialogue.Written songSource := by
  refine ⟨_, _, .bare (forall_of_all rfl),
    .cons (.cons (.cons (.bare (forall_of_all rfl) rfl) (.cons .quoted .nil)) .nil) .nil, ?_⟩
  exact laid_of_gaps
    [['\n'], [' '], [], [], ['\n'], [], ['\n', ' '], [' '], [], [' '], [], [' '], ['\n'], [' ']] [' ']
    (forall_of_all rfl) rfl (by decide +kernel)

theorem compile_written_song :
    (Options.ofNames ["sing"] false).check = .ok () ∧ (Options.ofNames ["sing"] false).strict = false ∧
      songDialogue.WellFormed (.ofNames ["sing"] false) ∧ songDialogue.Written songSource ∧
      compile (.ofNames ["sing"] false) songSource = .ok songDialogue :=
  ⟨rfl, rfl, songDialogue_wellFormed, songDialogue_written,
    compile_written rfl rfl songDialogue_wellFormed songDialogue_written⟩

end Parley
