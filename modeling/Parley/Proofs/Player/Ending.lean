import Parley.Proofs.Player.LineMode
import Parley.Proofs.Player.Stream

namespace Parley

/-- The headers that a dialogue can be at: those of its branches, and that of the end. -/
def Dialogue.Knows (dialogue : Dialogue) (header : String) : Prop :=
  header = exitHeader ∨ header ∈ dialogue.branches.map Branch.header

theorem answered_of_compile (compiled : compile options source = .ok dialogue) :
    ∀ branch ∈ dialogue.branches, branch.responses ≠ [] := fun branch member =>
  ((wellFormed_of_compile compiled).branches branch member).answered

namespace Response

variable {dialogue : Dialogue} {response : Response}

/-- The last move of the response leads to a header that is neither a branch nor the end. -/
def Dangles (dialogue : Dialogue) (response : Response) : Prop :=
  ∃ header, (response.directives.filterMap Directive.target?).getLast? = some header ∧
    ¬dialogue.Knows header

/-- From a known header, exactly the responses that dangle lead out of the dialogue. -/
theorem knows_landing_iff (known : dialogue.Knows header) :
    dialogue.Knows (response.landing header) ↔ ¬response.Dangles dialogue := by
  unfold landing Dangles
  cases last : (response.directives.filterMap Directive.target?).getLast? with
  | none => simpa using known
  | some target => simp

/-- Where references are checked, no response dangles. -/
theorem not_dangles_of_linked (linked : dialogue.Linked) (member : branch ∈ dialogue.branches)
    (offered : response ∈ branch.responses) : ¬response.Dangles dialogue := by
  rintro ⟨header, last, unknown⟩
  obtain ⟨directive, listed, moves⟩ := List.mem_filterMap.mp (List.mem_of_getLast? last)
  rcases Directive.eq_of_target? moves with ends | ⟨goes, target⟩
  · exact unknown (.inl ends)
  · apply unknown
    rw [← target]
    exact .inr (linked branch member response offered directive listed goes)

end Response

namespace Session

variable {dialogue : Dialogue} {session : Session}

structure Stands (dialogue : Dialogue) (session : Session) : Prop where
  same : session.dialogue = dialogue.moveTo session.dialogue.active
  known : dialogue.Knows session.dialogue.active

theorem branches_of_same (same : session.dialogue = dialogue.moveTo session.dialogue.active) :
    session.dialogue.branches = dialogue.branches := by
  rw [same]
  rfl

/-- Where every branch can be answered, a known header is that of a branch with responses, or the end. -/
theorem Stands.phase (stands : session.Stands dialogue)
    (answered : ∀ branch ∈ dialogue.branches, branch.responses ≠ []) :
    ∃ phase, session.phase = .ok phase := by
  have branches := branches_of_same stands.same
  cases finished : session.isFinished with
  | true => exact ⟨.over, phase_eq_over_iff.mpr finished⟩
  | false =>
    rcases stands.known with ended | listed
    · exact absurd ended (beq_eq_false_iff_ne.mp finished)
    · rw [← branches] at listed
      obtain ⟨branch, found⟩ := (session.dialogue.exists_branch?_iff _).mpr listed
      have member := (Dialogue.mem_of_branch? found).1
      rw [branches] at member
      refine ⟨.choosing branch, phase_eq_choosing_iff.mpr ⟨finished, ?_, answered branch member⟩⟩
      exact Dialogue.activeBranch_of_branch? found

/-- An unknown header has no branch to go on with. -/
theorem phase_of_unknown (same : session.dialogue = dialogue.moveTo session.dialogue.active)
    (unknown : ¬dialogue.Knows session.dialogue.active) :
    session.phase = .error ⟨.play (.lost session.dialogue.active dialogue.title), none⟩ := by
  obtain ⟨going, unlisted⟩ := not_or.mp unknown
  rw [← branches_of_same same, ← Dialogue.branch?_eq_none_iff] at unlisted
  have unfinished : session.isFinished = false := beq_eq_false_iff_ne.mpr going
  have title : session.dialogue.title = dialogue.title := by
    rw [same]
    rfl
  rw [phase, unfinished, Dialogue.activeBranch_eq_error_iff.mpr ⟨unlisted, rfl⟩, title]
  rfl

theorem stands_of_compile (compiled : compile options source = .ok dialogue) :
    (Session.start dialogue).Stands dialogue := by
  obtain ⟨first, rest, branches, active, _⟩ := (wellFormed_of_compile compiled).opening
  refine ⟨rfl, .inr ?_⟩
  change dialogue.active ∈ _
  rw [active, branches]
  exact List.mem_cons_self

/-- A session that is taken up again stands where it was saved, if that is in the dialogue. -/
theorem stands_of_resume (compiled : compile options source = .ok dialogue)
    (resumed : Session.resume options source header = .ok session) : session.Stands dialogue := by
  obtain ⟨opened, compiles, restored⟩ := bind_ok resumed
  rw [ofSource, compiled] at compiles
  cases compiles
  rw [restore_eq] at restored
  split at restored
  · rename_i known
    cases restored
    exact ⟨rfl, known⟩
  · cases restored

/-- A choice leads out of the dialogue exactly if its response dangles. -/
theorem choose_stands {choice : Nat} (stands : session.Stands dialogue)
    (took : session.choose choice = .ok taken) :
    ∃ branch response, session.dialogue.activeBranch = .ok branch ∧
      branch.responses[choice]? = some response ∧
      taken.session.dialogue = dialogue.moveTo taken.session.dialogue.active ∧
      (dialogue.Knows taken.session.dialogue.active ↔ ¬response.Dangles dialogue) := by
  obtain ⟨chosen, chose, same⟩ := bind_ok took
  cases same
  obtain ⟨_, branch, response, active, picked, moved⟩ := Dialogue.choose_inv chose
  refine ⟨branch, response, active, picked, ?_, ?_⟩
  · change chosen.dialogue = dialogue.moveTo chosen.dialogue.active
    rw [moved, stands.same]
    rfl
  · change dialogue.Knows chosen.dialogue.active ↔ _
    rw [moved]
    exact Response.knows_landing_iff stands.known

end Session

namespace Game

variable {setup : Setup} {game next : Game} {dialogue : Dialogue}

structure Stands (dialogue : Dialogue) (game : Game) : Prop where
  session : game.session.Stands dialogue
  waits : ∃ phase, game.Waits phase

/-- An input that takes a response which dangles. -/
def Strays (dialogue : Dialogue) (exchange : Game × Input) : Prop :=
  ∃ index outcome branch response, exchange.1.choice? exchange.2 = some (index, outcome) ∧
    exchange.1.session.dialogue.activeBranch = .ok branch ∧ branch.responses[index]? = some response ∧
    response.Dangles dialogue

theorem not_strays_of_choice? {input : Input} (chooses : game.choice? input = none) :
    ¬Strays dialogue (game, input) := by
  rintro ⟨index, outcome, branch, response, chose, _⟩
  rw [chooses] at chose
  cases chose

theorem turn_of_phase (phase : ∃ phase, game.session.phase = .ok phase) :
    game.turn.ending = none ∧ game.turn.state.session = game.session := by
  obtain ⟨phase, reached⟩ := phase
  unfold turn
  match phase, reached with
  | .over, reached =>
    rw [beginTurn_of_over reached]
    exact ⟨rfl, rfl⟩
  | .choosing branch, reached =>
    rw [beginTurn_of_choosing reached]
    exact ⟨rfl, rfl⟩

theorem turn_of_error {failure : Failure} (phase : game.session.phase = .error failure) :
    game.turn.ending = some (.failed failure) := by
  rw [turn, beginTurn_of_error phase]

theorem step_of_stands {status : String} {overwrites : List Overwrite}
    (answered : ∀ branch ∈ dialogue.branches, branch.responses ≠ [])
    (responded : game.respond setup input = .ok (.finished status overwrites, next))
    (stands : next.session.Stands dialogue) :
    (game.step setup input).ending = none ∧
      (game.step setup input).state.session.Stands dialogue := by
  obtain ⟨going, session⟩ := turn_of_phase (stands.phase answered)
  rw [step, responded]
  refine ⟨going, ?_⟩
  change next.turn.state.session.Stands dialogue
  rw [session]
  exact stands

theorem respond_ok (waits : ∃ phase, game.Waits phase) (setup : Setup) (input : Input) :
    ∃ answer, game.respond setup input = .ok answer := by
  cases input with
  | action action =>
    cases action with
    | save | load | restart | help | quit => exact ⟨_, rfl⟩
  | key key =>
    cases finished : game.session.isFinished with
    | true => exact ⟨_, by rw [respond, press, finished]; rfl⟩
    | false =>
      cases confirmed : game.cursor.confirmed? key with
      | none => exact ⟨_, by rw [respond, press, finished, confirmed]; rfl⟩
      | some index =>
        obtain ⟨phase, waits⟩ := waits
        obtain ⟨branch, rfl⟩ := waits.choosing_of_unfinished finished
        obtain ⟨taken, took⟩ := waits.choose
        rw [← Cursor.index_of_confirmed? confirmed] at took
        exact ⟨_, respond_of_confirmed setup finished confirmed took⟩

theorem turn_of_compile (compiled : compile options source = .ok dialogue) (disk : Disk) :
    let game : Game := ⟨.start dialogue, .start 0, disk⟩
    game.turn.ending = none ∧ game.turn.state.session = .start dialogue :=
  turn_of_phase ((Session.stands_of_compile compiled).phase (answered_of_compile compiled))

/-- What an input can do to a game that stands in the dialogue: it strays, and the player breaks off; or it
leaves; or the game stands in the dialogue again. -/
theorem step_cases (compiled : compile setup.options setup.script.text = .ok dialogue)
    (stands : game.Stands dialogue) (input : Input) :
    (Strays dialogue (game, input) ∧ ∃ header,
      (game.step setup input).ending = some (.failed ⟨.play (.lost header dialogue.title), none⟩)) ∨
    (¬Strays dialogue (game, input) ∧ (game.step setup input).ending = some .left) ∨
    (¬Strays dialogue (game, input) ∧ (game.step setup input).ending = none ∧
      (game.step setup input).state.session.Stands dialogue) := by
  have answered := answered_of_compile compiled
  obtain ⟨⟨reply, next⟩, responded⟩ := respond_ok stands.waits setup input
  cases answered_of_respond responded with
  | vain finished =>
    refine .inr (.inr ⟨not_strays_of_choice? (if_pos finished), ?_⟩)
    rw [step, responded]
    exact ⟨rfl, stands.session⟩
  | moved going other =>
    refine .inr (.inr ⟨not_strays_of_choice? (by simp [choice?, other]), ?_⟩)
    rw [step, responded]
    exact ⟨rfl, stands.session⟩
  | helped =>
    refine .inr (.inr ⟨not_strays_of_choice? rfl, ?_⟩)
    rw [step, responded]
    exact ⟨rfl, stands.session⟩
  | left =>
    refine .inr (.inl ⟨not_strays_of_choice? rfl, ?_⟩)
    rw [step, responded]
  | saved disk status =>
    exact .inr (.inr ⟨not_strays_of_choice? rfl, step_of_stands answered responded stands.session⟩)
  | unchanged status request =>
    exact .inr (.inr ⟨not_strays_of_choice? rfl, step_of_stands answered responded stands.session⟩)
  | restarted status opened =>
    rw [Session.ofSource, compiled] at opened
    cases opened
    exact .inr (.inr ⟨not_strays_of_choice? rfl,
      step_of_stands answered responded (Session.stands_of_compile compiled)⟩)
  | loaded status resumed =>
    obtain ⟨saved, _, resumed⟩ := bind_ok resumed
    rw [Setup.resume] at resumed
    split at resumed
    · exact .inr (.inr ⟨not_strays_of_choice? rfl,
        step_of_stands answered responded (Session.stands_of_resume compiled resumed)⟩)
    · cases resumed
  | @chose key index taken going confirmed took =>
    obtain ⟨branch, response, active, picked, same, knows⟩ := Session.choose_stands stands.session took
    have chooses : game.choice? (.key key) = some (index, .ok taken) := by
      simp [choice?, going, confirmed, took]
    by_cases dangles : response.Dangles dialogue
    · have lost := Session.phase_of_unknown same fun known => knows.mp known dangles
      refine .inl ⟨⟨index, _, branch, response, chooses, active, picked, dangles⟩,
        taken.session.dialogue.active, ?_⟩
      rw [step, responded]
      exact turn_of_error lost
    · refine .inr (.inr ⟨?_, step_of_stands answered responded ⟨same, knows.mpr dangles⟩⟩)
      rintro ⟨other, outcome, place, answer, chose, activated, offered, strays⟩
      rw [chooses] at chose
      cases chose
      rw [active] at activated
      cases activated
      rw [picked] at offered
      cases offered
      exact dangles strays

theorem stands_turn (compiled : compile options source = .ok dialogue) (disk : Disk) :
    let game : Game := ⟨.start dialogue, .start 0, disk⟩
    game.turn.ending = none → game.turn.state.Stands dialogue := by
  intro game going
  refine ⟨?_, turn_waits going⟩
  rw [(turn_of_compile compiled disk).2]
  exact Session.stands_of_compile compiled

/-- A game that stands in the dialogue stands there again after an input that it survives. -/
theorem Stands.step (compiled : compile setup.options setup.script.text = .ok dialogue)
    (stands : game.Stands dialogue) {input : Input} (going : (game.step setup input).ending = none) :
    (game.step setup input).state.Stands dialogue := by
  rcases step_cases compiled stands input with ⟨_, header, failed⟩ | ⟨_, left⟩ | ⟨_, _, stays⟩
  · rw [failed] at going
    cases going
  · rw [left] at going
    cases going
  · exact ⟨stays, step_waits stands.waits going⟩

theorem exchanges_stand (compiled : compile setup.options setup.script.text = .ok dialogue)
    (disk : Disk) (inputs : List Input) :
    ∀ exchange ∈ exchanges setup ⟨.start dialogue, .start 0, disk⟩ inputs,
      exchange.1.Stands dialogue :=
  Step.moments_keep (fun _ _ stands going => stands.step compiled going) (stands_turn compiled disk)

/-- A run ends with the first input that strays. Without one it goes on, unless the player leaves. -/
theorem run_cases (compiled : compile setup.options setup.script.text = .ok dialogue) (disk : Disk)
    (inputs : List Input) :
    let game : Game := ⟨.start dialogue, .start 0, disk⟩
    (∀ exchange ∈ game.exchanges setup inputs, Strays dialogue exchange → ∃ header,
      (game.run setup inputs).ending = some (.failed ⟨.play (.lost header dialogue.title), none⟩)) ∧
    ((∀ exchange ∈ game.exchanges setup inputs, ¬Strays dialogue exchange) →
      (game.run setup inputs).ending = none ∨ (game.run setup inputs).ending = some .left) := by
  intro game
  have stand := exchanges_stand compiled disk inputs
  refine ⟨?_, ?_⟩
  · intro exchange looked strays
    rcases step_cases compiled (stand exchange looked) exchange.2 with
      ⟨_, header, failed⟩ | ⟨steady, _⟩ | ⟨steady, _⟩
    · exact ⟨header, Step.ending_followedBy_iff.mpr (.inr ⟨exchange, looked, failed⟩)⟩
    · exact absurd strays steady
    · exact absurd strays steady
  · intro steady
    cases ended : (game.run setup inputs).ending with
    | none => exact .inl rfl
    | some last =>
      right
      rcases Step.ending_followedBy_iff.mp ended with early | ⟨exchange, looked, stopped⟩
      · rw [(turn_of_compile compiled disk).1] at early
        cases early
      · rcases step_cases compiled (stand exchange looked) exchange.2 with
          ⟨strays, _⟩ | ⟨_, left⟩ | ⟨_, going, _⟩
        · exact absurd strays (steady exchange looked)
        · exact stopped.symm.trans left
        · rw [going] at stopped
          cases stopped

theorem not_strays_of_linked {exchange : Game × Input} (linked : dialogue.Linked)
    (stands : exchange.1.session.Stands dialogue) : ¬Strays dialogue exchange := by
  rintro ⟨index, outcome, branch, response, _, active, picked, dangles⟩
  have member := (Dialogue.mem_of_activeBranch active).1
  rw [Session.branches_of_same stands.same] at member
  exact Response.not_dangles_of_linked linked member (List.mem_of_getElem? picked) dangles

end Game

/-- The line mode ends with its input at the latest, on every text and whatever is found where games are
saved. It ends cleanly unless a response is taken that leads to no branch; then it reports that, and ends
there. Over a dialogue whose references were checked it always ends cleanly. -/
theorem stream_ends (setup : Setup) (disk : Disk) (text : String)
    (compiled : compile setup.options setup.script.text = .ok dialogue) :
    let game : Game := ⟨.start dialogue, .start 0, disk⟩
    let lines := (Typed.lines text.toList).map String.ofList
    let last := LinePlay.toEnd setup game lines
    let outcome := Cli.playStream setup game (Typed.ofBytes text.toUTF8)
    ((∃ exchange ∈ LinePlay.exchanges setup game lines, Game.Strays dialogue exchange) →
      outcome.code = 1 ∧ ∃ failure, last.ending = some (.failed failure) ∧
        failure.code = "QDL_RUNTIME_BRANCH_NOT_FOUND" ∧
        outcome.output = String.join last.shown ++ Report.ofLines (Report.failure failure)) ∧
    ((∀ exchange ∈ LinePlay.exchanges setup game lines, ¬Game.Strays dialogue exchange) →
      outcome.code = 0 ∧ last.ending = some .left ∧ outcome.output = String.join last.shown) ∧
    (setup.options.strict = true → outcome.code = 0 ∧ last.ending = some .left) := by
  intro game lines last outcome
  obtain ⟨agrees, exchanged⟩ := LinePlay.run_agrees setup game lines
  obtain ⟨broken, unbroken⟩ := Game.run_cases compiled disk (lines.map Input.ofLine)
  have concluded : outcome = Cli.conclude (String.join last.shown) [] last.state.game.disk
      last.overwrites last.ending := by
    change Cli.playStream setup game (Typed.ofBytes text.toUTF8) = _
    rw [Typed.ofBytes_toUTF8, Cli.playStream_lines]
  have cleanly (steady : ∀ exchange ∈ LinePlay.exchanges setup game lines,
      ¬Game.Strays dialogue exchange) : last.ending = some .left := by
    rw [exchanged] at steady
    rcases unbroken steady with going | left
    · exact LinePlay.ending_toEnd_of_going (agrees.ending.trans going)
    · have ended := agrees.ending.trans left
      exact (congrArg Step.ending (LinePlay.toEnd_of_ending ended)).trans ended
  refine ⟨?_, ?_, ?_⟩
  · rintro ⟨exchange, looked, strays⟩
    rw [exchanged] at looked
    obtain ⟨header, failed⟩ := broken exchange looked strays
    have ended := agrees.ending.trans failed
    have same : last = LinePlay.run setup game lines := LinePlay.toEnd_of_ending ended
    rw [concluded, same, ended]
    exact ⟨rfl, _, rfl, rfl, rfl⟩
  · intro steady
    rw [concluded, cleanly steady]
    exact ⟨rfl, rfl, rfl⟩
  · intro strict
    have linked := (Dialogue.safe_of_compile strict compiled).linked
    have clean := cleanly (by
      rw [exchanged]
      intro exchange looked
      exact Game.not_strays_of_linked linked
        (Game.exchanges_stand compiled disk _ exchange looked).session)
    rw [concluded, clean]
    exact ⟨rfl, rfl⟩

/-- The second response of the pier leads to the sea, which is no branch. -/
theorem stream_ends_on_ferry :
    let lines := (Typed.lines "j\n\n:load".toList).map String.ofList
    let last := LinePlay.toEnd ferrySetup ferryGame lines
    let outcome := Cli.playStream ferrySetup ferryGame (Typed.ofBytes "j\n\n:load".toUTF8)
    compile ferrySetup.options ferrySetup.script.text = .ok ferry ∧
    (∃ exchange ∈ LinePlay.exchanges ferrySetup ferryGame lines, Game.Strays ferry exchange) ∧
    outcome.code = 1 ∧ ∃ failure, last.ending = some (.failed failure) ∧
      failure.code = "QDL_RUNTIME_BRANCH_NOT_FOUND" ∧
      outcome.output = String.join last.shown ++ Report.ofLines (Report.failure failure) := by
  intro lines last outcome
  have confirmed : (LinePlay.exchanges ferrySetup ferryGame lines)[1]?
      = some ({ ferryGame with cursor := ⟨1, 2⟩ }, .key .confirm) := by
    rfl
  have strays : Game.Strays ferry ({ ferryGame with cursor := ⟨1, 2⟩ }, .key .confirm) := by
    refine ⟨1, _, _, _, rfl, rfl, rfl, "sea", rfl, ?_⟩
    rintro (ends | listed)
    · simp [exitHeader] at ends
    · simp [ferry, ferryBranches] at listed
  have straying : ∃ exchange ∈ LinePlay.exchanges ferrySetup ferryGame lines,
      Game.Strays ferry exchange :=
    ⟨_, List.mem_of_getElem? confirmed, strays⟩
  exact ⟨compile_ferrySource, straying,
    (stream_ends ferrySetup ferryGame.disk "j\n\n:load" compile_ferrySource).1 straying⟩

end Parley
