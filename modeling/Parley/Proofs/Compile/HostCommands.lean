import Parley.Proofs.Page.Grammar
import Parley.Proofs.Page.WellFormed

/-! What the host's command names decide. They are asked while commands are read, and the answer is a name that
stays in the dialogue or the end of the compilation, so other names give the same dialogue or stop at one that
they lack. -/

namespace Parley

def Command.hostName? : Command → Option String
  | host name => some name
  | _ => none

def Dialogue.hostNames (dialogue : Dialogue) : List String :=
  dialogue.branches.flatMap fun branch =>
    branch.responses.flatMap fun response => response.commands.filterMap Command.hostName?

variable {first second : Options}

theorem Command.known_iff {command : Command} {options : Options} :
    command.Known options ↔ ∀ name, command.hostName? = some name → name ∈ options.hostCommands := by
  cases command <;> simp [Known, hostName?]

/-- The host commands are among some names exactly when every directive is known by them. -/
theorem Dialogue.hostNames_known_iff (dialogue : Dialogue) (options : Options) :
    (∀ name ∈ dialogue.hostNames, name ∈ options.hostCommands) ↔
      ∀ branch ∈ dialogue.branches, ∀ response ∈ branch.responses,
        ∀ directive ∈ response.directives, directive.command.Known options := by
  simp only [hostNames, Response.commands, List.forall_mem_flatMap, List.mem_filterMap, List.mem_map,
    Command.known_iff]
  grind

/-- What one host takes for a command another takes for the same, unless it is a host command that the other lacks. -/
theorem Options.command?_cases (second : Options) {name : String} {command : Command}
    (found : first.command? name = some command) :
    second.command? name = some command ∨
      command = .host name ∧ name ∈ first.hostCommands ∧ name ∉ second.hostCommands ∧
        second.command? name = none := by
  unfold command? at found ⊢
  cases builtin : Command.builtin? name with
  | some _ =>
    rw [builtin] at found
    exact .inl found
  | none =>
    simp only [builtin] at found
    by_cases has : name ∈ first.hostCommands
    · rw [if_pos has] at found
      by_cases kept : name ∈ second.hostCommands
      · exact .inl ((if_pos kept).trans found)
      · exact .inr ⟨(Option.some.inj found).symm, has, kept, if_neg kept⟩
    · rw [if_neg has] at found
      cases found

theorem Options.command?_of_known {name : String} {command : Command}
    (found : first.command? name = some command) (known : command.Known second) :
    second.command? name = some command := by
  rcases command?_cases second found with same | ⟨rfl, _, lacks, _⟩
  · exact same
  · exact absurd known lacks

/-! A page is a page for all options that know its commands. -/

theorem CommandPage.exists_under (page : CommandPage first) (known : page.command.Known second) :
    ∃ other : CommandPage second, other.tokens = page.tokens ∧ other.directive = page.directive := by
  have found := Options.command?_of_known page.known known
  exact ⟨⟨⟨page.name, page.command, page.begun, page.unbroken, found⟩, page.argument⟩, rfl, rfl⟩

theorem ResponsePage.exists_under (page : ResponsePage first)
    (known : ∀ directive ∈ page.response.directives, directive.command.Known second) :
    ∃ other : ResponsePage second, other.tokens = page.tokens ∧ other.response = page.response := by
  have each : ∀ command ∈ page.commands, ∃ other : CommandPage second,
      other.tokens = command.tokens ∧ other.directive = command.directive := by
    intro command member
    exact command.exists_under (known _ (List.mem_map_of_mem member))
  obtain ⟨commands, written, directives⟩ := exists_flatMap each
  refine ⟨⟨⟨page.line, commands, page.leading, page.spoken⟩, page.trailing, page.silent⟩, ?_, ?_⟩
  · simp only [tokens, ResponseStart.tokens, written]
  · simp only [ResponseStart.response, directives]

theorem BranchPage.exists_under (page : BranchPage first)
    (known : ∀ response ∈ page.branch.responses, ∀ directive ∈ response.directives,
      directive.command.Known second) :
    ∃ other : BranchPage second, other.tokens = page.tokens ∧ other.branch = page.branch := by
  have each : ∀ response ∈ page.responses, ∃ other : ResponsePage second,
      other.tokens = response.tokens ∧ other.response = response.response := by
    intro response member
    exact response.exists_under (known _ (List.mem_map_of_mem member))
  obtain ⟨responses, written, said⟩ := exists_flatMap each
  have answered : responses ≠ [] := by
    rintro rfl
    exact page.answered (List.map_eq_nil_iff.mp said.symm)
  refine ⟨⟨⟨page.header, page.message, responses, page.headerClosed, page.messageClosed, page.named,
    page.unreserved⟩, page.closing, answered, page.mute⟩, ?_, ?_⟩
  · simp only [tokens, BranchStart.tokens, written]
  · simp only [BranchStart.branch, said]

theorem Page.exists_under (page : Page first)
    (known : ∀ name ∈ page.dialogue.hostNames, name ∈ second.hostCommands) :
    ∃ other : Page second, other.text = page.text ∧ other.dialogue = page.dialogue := by
  have known := (page.dialogue.hostNames_known_iff second).mp known
  have each : ∀ branch ∈ page.branches, ∃ other : BranchPage second,
      other.tokens = branch.tokens ∧ other.branch = branch.branch := by
    intro branch member
    exact branch.exists_under (known _ (List.mem_map_of_mem member))
  obtain ⟨branches, written, said⟩ := exists_flatMap each
  have inhabited : branches ≠ [] := by
    rintro rfl
    exact page.inhabited (List.map_eq_nil_iff.mp said.symm)
  let other : Page second := ⟨⟨page.front, page.title, branches, page.mute, page.visible⟩, inhabited⟩
  refine ⟨other, ?_, ?_⟩
  · rw [text, text, tokens_eq, tokens_eq, written]
  · have spelled := other.ofBranches?_dialogue
    rw [said, page.ofBranches?_dialogue] at spelled
    exact (Except.ok.inj spelled).symm

/-- An outcome under other options: as it was, or stopped at a host command that only the first options name. -/
def Curbed (first second : Options) (value : α) (outcome : Except Failure α) : Prop :=
  outcome = .ok value ∨ ∃ name mark, name ∈ first.hostCommands ∧ name ∉ second.hostCommands ∧
    outcome = .error ⟨.draft (.unknownCommand name), some mark⟩

theorem Curbed.bind {value : α} {outcome : Except Failure α} {next : α → Except Failure β} {last : β}
    (curbed : Curbed first second value outcome) (later : Curbed first second last (next value)) :
    Curbed first second last (outcome >>= next) := by
  rcases curbed with rfl | ⟨name, mark, has, lacks, rfl⟩
  · exact later
  · exact .inr ⟨name, mark, has, lacks, rfl⟩

namespace Draft

variable {draft next : Draft} {mark : Mark} {counts : Counts}

theorem readPlain_curbed (taken : draft.readPlain first mark = .ok next) :
    Curbed first second next (draft.readPlain second mark) := by
  obtain ⟨quoted, buffer, stage⟩ := draft
  rcases stage with opened | ⟨title, branches, left, position⟩
  · exact .inl taken
  cases position with
  | commands branch list =>
    simp only [readPlain] at taken ⊢
    by_cases before : (Text.isBlank mark.char && buffer.isEmpty) = true
    · rw [if_pos before] at taken ⊢
      exact .inl taken
    · rw [if_neg before] at taken ⊢
      by_cases ends : mark.char = ' '
      · rw [if_pos ends] at taken ⊢
        cases found : first.command? buffer.text with
        | none =>
          rw [found] at taken
          cases taken
        | some command =>
          rw [found] at taken
          rcases Options.command?_cases second found with same | ⟨_, has, lacks, missing⟩
          · rw [same]
            exact .inl taken
          · rw [missing]
            exact .inr ⟨_, mark, has, lacks, rfl⟩
      · rw [if_neg ends] at taken ⊢
        exact .inl taken
  | _ => exact .inl taken

/-- No character but the space behind a name is read otherwise. -/
theorem read_curbed (taken : draft.read first counts mark = .ok next) :
    Curbed first second next (draft.read second counts mark) := by
  unfold read at taken ⊢
  by_cases quote : mark.char = '"'
  · rw [if_pos quote] at taken ⊢
    exact .inl taken
  · rw [if_neg quote] at taken ⊢
    by_cases inside : draft.quoted = true
    · rw [if_pos inside] at taken ⊢
      exact .inl taken
    · rw [if_neg inside] at taken ⊢
      split at taken
      case h_8 => exact readPlain_curbed taken
      all_goals exact .inl taken

theorem foldlM_curbed {marks : List Mark} (taken : marks.foldlM (read first counts) draft = .ok next) :
    Curbed first second next (marks.foldlM (read second counts) draft) := by
  induction marks generalizing draft with
  | nil => exact .inl taken
  | cons mark rest ih =>
    rw [List.foldlM_cons] at taken ⊢
    obtain ⟨middle, read, taken⟩ := bind_ok taken
    exact (read_curbed read).bind (ih taken)

end Draft

theorem build_curbed {counts : Counts} {marks : List Mark} {dialogue : Dialogue}
    (built : build first counts marks = .ok dialogue) :
    Curbed first second dialogue (build second counts marks) := by
  rw [build_eq_draft] at built ⊢
  obtain ⟨draft, read, finished⟩ := bind_ok built
  exact (Draft.foldlM_curbed read).bind (.inl finished)

/-- Under other valid options a source that compiles compiles to the same dialogue, or stops at a host command that
they lack. -/
theorem compile_curbed {source : String} {dialogue : Dialogue}
    (compiled : compile first source = .ok dialogue) (valid : second.check = .ok ())
    (same : second.strict = first.strict) :
    Curbed first second dialogue (compile second source) := by
  obtain ⟨_, _, compiled⟩ := bind_ok compiled
  obtain ⟨marks, normal, compiled⟩ := bind_ok compiled
  obtain ⟨counts, counted, compiled⟩ := bind_ok compiled
  obtain ⟨built, read, compiled⟩ := bind_ok compiled
  rw [compile, valid, normal]
  simp only [ok_bind, counted, same]
  exact (build_curbed read).bind (.inl compiled)

theorem mem_hostCommands_of_compile {source : String} {dialogue : Dialogue}
    (compiled : compile first source = .ok dialogue) :
    ∀ name ∈ dialogue.hostNames, name ∈ first.hostCommands := by
  have formed := wellFormed_of_compile compiled
  refine (dialogue.hostNames_known_iff first).mpr ?_
  intro branch held response offered
  exact ((formed.branches branch held).responses response offered).known

theorem compile_of_hostNames {source : String} {dialogue : Dialogue}
    (compiled : compile first source = .ok dialogue) (valid : second.check = .ok ())
    (same : second.strict = first.strict)
    (known : ∀ name ∈ dialogue.hostNames, name ∈ second.hostCommands) :
    compile second source = .ok dialogue := by
  obtain ⟨_, ⟨page, spelled, rfl⟩, clear⟩ := (compile_ok_iff first source dialogue).mp compiled
  obtain ⟨other, written, read⟩ := page.exists_under known
  refine (compile_ok_iff second source page.dialogue).mpr ⟨valid, ⟨other, written.trans spelled, read⟩, ?_⟩
  intro strict
  exact clear (same ▸ strict)

/-- The host commands of a dialogue are enough to compile it. -/
theorem compile_ofNames_hostNames {source : String} {dialogue : Dialogue}
    (compiled : compile first source = .ok dialogue) :
    compile (.ofNames dialogue.hostNames first.strict) source = .ok dialogue := by
  have valid := (compile_ok_iff first source dialogue).mp compiled |>.1
  have among := mem_hostCommands_of_compile compiled
  refine compile_of_hostNames compiled ((Options.check_ok_iff _).mpr ?_) rfl ?_
  · intro name member
    exact first.check_ok_iff.mp valid name (among name (mem_orderNames.mp member))
  · intro name member
    exact mem_orderNames.mpr member

/-- The host's command names only filter. What compiles under some names compiles to the same dialogue under any
others that have every host command of it, more names among them; under those that have not, compilation fails at
a host command of the dialogue that they lack. -/
theorem host_commands_filter {source : String} {dialogue : Dialogue}
    (compiled : compile first source = .ok dialogue) (valid : second.check = .ok ())
    (same : second.strict = first.strict) :
    ((∀ name ∈ dialogue.hostNames, name ∈ second.hostCommands) →
      compile second source = .ok dialogue) ∧
    ((¬∀ name ∈ dialogue.hostNames, name ∈ second.hostCommands) →
      ∃ failure name, compile second source = .error failure ∧
        failure.code = "QDL_BUILD_UNKNOWN_COMMAND" ∧ failure.cause = .draft (.unknownCommand name) ∧
        name ∈ dialogue.hostNames ∧ name ∉ second.hostCommands) ∧
    ((∀ name ∈ first.hostCommands, name ∈ second.hostCommands) →
      compile second source = .ok dialogue) := by
  refine ⟨compile_of_hostNames compiled valid same, ?_, ?_⟩
  · intro lacking
    -- Between the two stand the names that the dialogue needs, so the one that is lacked is one of these.
    rcases compile_curbed (compile_ofNames_hostNames compiled) valid same with again | stopped
    · exact absurd (mem_hostCommands_of_compile again) lacking
    · obtain ⟨name, mark, needed, lacks, refused⟩ := stopped
      exact ⟨_, name, refused, rfl, rfl, mem_orderNames.mp needed, lacks⟩
  · intro more
    refine compile_of_hostNames compiled valid same ?_
    intro name member
    exact more name (mem_hostCommands_of_compile compiled name member)

/-- A page that names a host command in a string, over two lines. -/
def chantPage : String := "[T]\n\x7b \"a\" \"m\" \"r\" (\n \"chant\" loud; goto a;)\x7d"

def chant : Dialogue :=
  ⟨"T", [⟨"a", "m", [⟨"r", [⟨.host "chant", "loud"⟩, ⟨.goto, "a"⟩]⟩]⟩], "a", _, rfl⟩

theorem host_commands_filter_of_chant :
    compile (.ofNames ["chant"] false) chantPage = .ok chant ∧
    ((Options.ofNames ["bow", "chant"] false).check = .ok () ∧
      (Options.ofNames ["bow", "chant"] false).strict = (Options.ofNames ["chant"] false).strict ∧
      (∀ name ∈ chant.hostNames, name ∈ (Options.ofNames ["bow", "chant"] false).hostCommands) ∧
      (∀ name ∈ (Options.ofNames ["chant"] false).hostCommands,
        name ∈ (Options.ofNames ["bow", "chant"] false).hostCommands) ∧
      compile (.ofNames ["bow", "chant"] false) chantPage = .ok chant) ∧
    (Options.ofNames ["bow"] false).check = .ok () ∧
      (Options.ofNames ["bow"] false).strict = (Options.ofNames ["chant"] false).strict ∧
      (¬∀ name ∈ chant.hostNames, name ∈ (Options.ofNames ["bow"] false).hostCommands) ∧
      ∃ failure name, compile (.ofNames ["bow"] false) chantPage = .error failure ∧
        failure.code = "QDL_BUILD_UNKNOWN_COMMAND" ∧ failure.cause = .draft (.unknownCommand name) ∧
        name ∈ chant.hostNames ∧ name ∉ (Options.ofNames ["bow"] false).hostCommands := by
  have compiled : compile (.ofNames ["chant"] false) chantPage = .ok chant := by rfl
  have wider : (Options.ofNames ["bow", "chant"] false).check = .ok () := by rfl
  have other : (Options.ofNames ["bow"] false).check = .ok () := by rfl
  have known : ∀ name ∈ chant.hostNames, name ∈ (Options.ofNames ["bow", "chant"] false).hostCommands := by
    decide
  have more : ∀ name ∈ (Options.ofNames ["chant"] false).hostCommands,
      name ∈ (Options.ofNames ["bow", "chant"] false).hostCommands := by decide
  have lacking : ¬∀ name ∈ chant.hostNames, name ∈ (Options.ofNames ["bow"] false).hostCommands := by
    decide
  obtain ⟨kept, _, _⟩ := host_commands_filter compiled wider rfl
  obtain ⟨_, stopped, _⟩ := host_commands_filter compiled other rfl
  exact ⟨compiled, ⟨wider, rfl, known, more, kept known⟩, other, rfl, lacking, stopped lacking⟩

end Parley
