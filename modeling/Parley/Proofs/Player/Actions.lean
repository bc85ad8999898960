import Parley.Proofs.Player.Loading

/-! Actions of a player are all or nothing: saving, loading and starting over do what they are asked for or
leave the session as it is, and a player that is told of a failure goes on. -/

namespace Parley

theorem append_ne_empty {left : String} (filled : left ≠ "") (right : String) : left ++ right ≠ "" := by
  intro empty
  exact filled (String.append_eq_empty_iff.mp empty).1

/-- There is always something to tell of a file that could not be used. -/
theorem CommandFault.message_ne_empty (fault : CommandFault) : fault.message ≠ "" := by
  cases fault with
  | sourceUnresolved fault | sourceUnreadable fault | saveUnwritable fault | saveUnreadable fault
  | terminal fault => cases fault <;> decide
  | sourceMissing | sourceNotFile | noSources | saveMissing | saveForeign =>
    exact append_ne_empty (by decide) _
  | sourceUnopened | sourceUnscanned | saveOfOther =>
    exact append_ne_empty (append_ne_empty (append_ne_empty (by decide) _) _) _
  | saveMalformed => decide

namespace SavedGame

theorem ofText_error {text : String} {failure : Failure} (failed : ofText text = .error failure) :
    ∃ fault, failure = ⟨.command fault, none⟩ := by
  unfold ofText at failed
  split at failed
  · cases failed
    exact ⟨_, rfl⟩
  · split at failed <;> cases failed
    exact ⟨_, rfl⟩

theorem load_error {disk : Disk} {path : String} {failure : Failure}
    (failed : load disk path = .error failure) : ∃ fault, failure = ⟨.command fault, none⟩ := by
  unfold load at failed
  split at failed
  · split at failed
    · exact ofText_error failed
    · cases failed
      exact ⟨_, rfl⟩
  · cases failed
    exact ⟨_, rfl⟩

end SavedGame

section Resume

variable {dialogue : Dialogue}

/-- A header that the dialogue does not know is the one thing that keeps a session from being taken up. -/
theorem Session.resume_of_unknown (compiled : compile options source = .ok dialogue)
    (unknown : ¬dialogue.Knows header) :
    Session.resume options source header
      = .error ⟨.play (.unknownBranch dialogue.title header), none⟩ := by
  rw [resume, ofSource, compiled, ok_bind, pure_eq_ok, ok_bind, restore_eq]
  exact if_neg unknown

end Resume

namespace Game

variable {setup : Setup} {dialogue : Dialogue} {first game next : Game} {action : Action}

/-- What an action comes to, if it can fail or change the game at all. -/
def perform? (setup : Setup) (game : Game) : Action → Option (Game × Except Failure String)
  | .save => some (game.save setup)
  | .load => some (game.load setup)
  | .restart => some (game.restart setup)
  | .help | .quit => none

theorem respond_of_perform? {result : Except Failure String}
    (performed : game.perform? setup action = some (next, result)) :
    game.respond setup (.action action) = .ok (report (next, result)) := by
  cases action with
  | help | quit => cases performed
  | save | load | restart => exact congrArg (Except.ok ∘ report) (Option.some.inj performed)

/-- A load succeeds exactly where a game is found that was saved from this dialogue, somewhere in it. -/
theorem load_cases (compiled : compile setup.options setup.script.text = .ok dialogue) (game : Game) :
    (∃ saved, SavedGame.load game.disk setup.saveFile = .ok saved ∧ saved.source = setup.script.path ∧
      dialogue.Knows saved.active ∧
      game.load setup = ({ game with session := ⟨dialogue.moveTo saved.active, 0⟩ },
        .ok s!"loaded from {setup.saveFile}")) ∨
    ((∀ saved, SavedGame.load game.disk setup.saveFile = .ok saved → saved.source = setup.script.path →
        ¬dialogue.Knows saved.active) ∧
      ∃ failure, game.load setup = (game, .error failure) ∧ failure.message ≠ "") := by
  rw [load]
  cases found : SavedGame.load game.disk setup.saveFile with
  | error failure =>
    obtain ⟨fault, rfl⟩ := SavedGame.load_error found
    refine .inr ⟨?_, _, rfl, fault.message_ne_empty⟩
    intro saved loaded
    cases loaded
  | ok saved =>
    rw [ok_bind, Setup.resume]
    by_cases here : saved.source = setup.script.path
    · rw [if_pos here]
      by_cases known : dialogue.Knows saved.active
      · rw [Session.resume_of_known compiled known]
        exact .inl ⟨saved, rfl, here, known, rfl⟩
      · rw [Session.resume_of_unknown compiled known]
        refine .inr ⟨?_, _, rfl, ?_⟩
        · intro other same _
          cases same
          exact known
        · exact append_ne_empty (append_ne_empty (append_ne_empty (append_ne_empty (by decide) _) _) _) _
    · rw [if_neg here]
      refine .inr ⟨?_, _, rfl, CommandFault.message_ne_empty (.saveOfOther _ _)⟩
      intro other same named
      cases same
      exact absurd named here

theorem restart_of_compile (compiled : compile setup.options setup.script.text = .ok dialogue)
    (game : Game) :
    game.restart setup = ({ game with session := .start dialogue }, .ok "restarted") := by
  rw [restart, Session.ofSource, compiled]
  rfl

/-- An action that fails changes nothing but the disk, and only a save changes that. There is something to tell
about it. -/
theorem failed_of_perform? {failure : Failure}
    (compiled : compile setup.options setup.script.text = .ok dialogue)
    (performed : game.perform? setup action = some (next, .error failure)) :
    next.session = game.session ∧ next.cursor = game.cursor ∧ failure.message ≠ "" := by
  cases action with
  | help | quit => cases performed
  | save =>
    have failed : game.save setup = (next, .error failure) := Option.some.inj performed
    rw [save] at failed
    rcases (setup.saved game.session).save_cases game.disk setup.saveFile with
      ⟨after, stored, _⟩ | ⟨after, fault, stopped, _⟩
    · rw [stored] at failed
      cases failed
    · rw [stopped] at failed
      cases failed
      exact ⟨rfl, rfl, CommandFault.message_ne_empty (.saveUnwritable fault)⟩
  | load =>
    have failed : game.load setup = (next, .error failure) := Option.some.inj performed
    rcases game.load_cases compiled with ⟨saved, _, _, _, loaded⟩ | ⟨_, other, stopped, told⟩
    · cases loaded.symm.trans failed
    · cases stopped.symm.trans failed
      exact ⟨rfl, rfl, told⟩
  | restart =>
    have failed : game.restart setup = (next, .error failure) := Option.some.inj performed
    cases (game.restart_of_compile compiled).symm.trans failed

/-- A game under way: it has begun and takes inputs, and meanwhile others write to the disk as they like. -/
inductive Live (setup : Setup) (first : Game) : Game → Prop
  | begun (going : first.turn.ending = none) : Live setup first first.turn.state
  | disturbed {game : Game} (live : Live setup first game) (disk : Disk) : Live setup first { game with disk }
  | played {game : Game} (live : Live setup first game) (going : (game.step setup input).ending = none) :
      Live setup first (game.step setup input).state

/-- What the disk holds is nothing to the session. -/
theorem Stands.disturbed (stands : game.Stands dialogue) (disk : Disk) :
    { game with disk }.Stands dialogue := by
  obtain ⟨session, phase, waits⟩ := stands
  refine ⟨session, phase, ?_⟩
  cases waits with
  | ended phase => exact .ended phase
  | choosing phase count within => exact .choosing phase count within

theorem Live.stands (compiled : compile setup.options setup.script.text = .ok dialogue)
    {disk : Disk} (live : Live setup ⟨.start dialogue, .start 0, disk⟩ game) :
    game.Stands dialogue := by
  generalize begun : (⟨.start dialogue, .start 0, disk⟩ : Game) = first at live
  induction live with
  | begun going =>
    subst begun
    exact stands_turn compiled disk going
  | disturbed live disk ih => exact ih.disturbed disk
  | played live going ih => exact ih.step compiled going

/-- Whoever plays it, a game is live wherever an input finds it. -/
theorem live_exchanges (setup : Setup) (first : Game) (inputs : List Input) :
    ∀ exchange ∈ first.exchanges setup inputs, Live setup first exchange.1 :=
  Step.moments_keep (fun _ _ live going => .played live going) .begun

/-- Where an action leaves a session in the dialogue, the game goes on with it. -/
theorem step_of_perform? {result : Except Failure String}
    (answered : ∀ branch ∈ dialogue.branches, branch.responses ≠ [])
    (performed : game.perform? setup action = some (next, result))
    (stands : next.session.Stands dialogue) :
    (game.step setup (.action action)).ending = none ∧
      (game.step setup (.action action)).state.session = next.session := by
  rw [step, respond_of_perform? performed]
  cases result with
  | ok status => exact turn_of_phase (stands.phase answered)
  | error failure => exact turn_of_phase (stands.phase answered)

end Game

section Told

variable {setup : Setup} {game next : Game} {action : Action} {failure : Failure}

theorem LinePlay.read_of_perform? {outcome : Game × Except Failure String}
    (performed : game.perform? setup action = some outcome) {text : String}
    (asked : Input.ofLine text = .action action) (shown : Bool) :
    read setup ⟨game, shown⟩ text = receive setup ⟨game, shown⟩ (.action action) := by
  have other : Input.ofLine text ≠ .action .help := by
    rintro help
    cases asked.symm.trans help
    cases performed
  rw [read_of_played other, asked]

theorem LinePlay.goes_on (performed : game.perform? setup action = some (next, .error failure))
    (told : failure.message ≠ "") (goes : (game.step setup (.action action)).ending = none)
    {text : String} (asked : Input.ofLine text = .action action) (shown : Bool) :
    (read setup ⟨game, shown⟩ text).ending = none ∧
      (read setup ⟨game, shown⟩ text).state.game = (game.step setup (.action action)).state ∧
      (read setup ⟨game, shown⟩ text).shown.head? = some s!"* {failure.message}\n" := by
  have agrees := receive_agrees setup ⟨game, shown⟩ (.action action)
  rw [read_of_perform? performed asked]
  refine ⟨agrees.ending.trans goes, agrees.state, ?_⟩
  have filled : failure.message.isEmpty = false := by simpa using told
  rw [receive, Game.respond_of_perform? performed]
  simp only [Game.report, filled]
  rfl

theorem ScreenPlay.handed?_of_perform? {outcome : Game × Except Failure String}
    (performed : game.perform? setup action = some outcome) {key : KeyPress}
    (asked : Input.ofPress key = .action action) (panel : Panel) :
    handed? ⟨game, panel⟩ (.press key) = some (.action action) := by
  have other : action ≠ .help := by
    rintro rfl
    cases performed
  simp [handed?, asked, other, Input.steers]

theorem ScreenPlay.goes_on (performed : game.perform? setup action = some (next, .error failure))
    (told : failure.message ≠ "") (goes : (game.step setup (.action action)).ending = none)
    {key : KeyPress} (asked : Input.ofPress key = .action action) (panel : Panel) :
    (respond setup ⟨game, panel⟩ (.press key)).ending = none ∧
      (respond setup ⟨game, panel⟩ (.press key)).state.game = (game.step setup (.action action)).state ∧
      (respond setup ⟨game, panel⟩ (.press key)).shown.head?.map Panel.status = some failure.message := by
  have handed := handed?_of_perform? performed asked panel
  have agrees := receive_agrees setup ⟨game, panel⟩ (.action action)
  have answered : game.status? setup (.action action) = some failure.message := by
    rw [Game.status?, Game.respond_of_perform? performed]
    rfl
  have drawn := head?_shown_respond handed answered
  have filled : failure.message.isEmpty = false := by simpa using told
  rw [filled] at drawn
  refine ⟨?_, ?_, drawn⟩
  · rw [respond_of_handed setup handed]
    exact agrees.ending.trans goes
  · rw [respond_of_handed setup handed]
    exact agrees.state

end Told

/-- What the actions come to in a game that began with `first`. Loading takes up the game that is found, in the
same dialogue and with no turns taken, or changes nothing; saving never touches the session; starting over always
goes back to the session at the beginning. What fails is reported, and the game goes on with the session it had. -/
structure Game.ActsWhole (setup : Setup) (first game : Game) : Prop where
  loads :
    (∃ saved, SavedGame.load game.disk setup.saveFile = .ok saved ∧ saved.source = setup.script.path ∧
      (saved.active = exitHeader ∨ saved.active ∈ first.session.dialogue.branches.map Branch.header) ∧
      game.load setup = ({ game with session := ⟨first.session.dialogue.moveTo saved.active, 0⟩ },
        .ok s!"loaded from {setup.saveFile}")) ∨
    ((∀ saved, SavedGame.load game.disk setup.saveFile = .ok saved → saved.source = setup.script.path →
        ¬(saved.active = exitHeader ∨ saved.active ∈ first.session.dialogue.branches.map Branch.header)) ∧
      ∃ failure, game.load setup = (game, .error failure))
  saves : (game.save setup).1.session = game.session ∧ (game.save setup).1.cursor = game.cursor
  restarts : game.restart setup = ({ game with session := first.session }, .ok "restarted")
  goesOn : ∀ action next failure, game.perform? setup action = some (next, .error failure) →
    next.session = game.session ∧
    (∀ text shown, Input.ofLine text = .action action →
      let step := LinePlay.read setup ⟨game, shown⟩ text
      step.ending = none ∧ step.state.game.session = game.session ∧
        step.shown.head? = some s!"* {failure.message}\n") ∧
    ∀ key panel, Input.ofPress key = .action action →
      let step := ScreenPlay.respond setup ⟨game, panel⟩ (.press key)
      step.ending = none ∧ step.state.game.session = game.session ∧
        step.shown.head?.map Panel.status = some failure.message

/-- Actions are all or nothing in every game under way, whatever is found where games are saved. The games that
inputs find, in either mode, are under way. -/
theorem actions_all_or_nothing {disk : Disk} {compiling : Cli.Compiling} {saveFile : Option String}
    {setup : Setup} {first : Game} (opened : Cli.openGame disk compiling saveFile = .ok (setup, first)) :
    (∀ game, Game.Live setup first game → Game.ActsWhole setup first game) ∧
    (∀ lines, ∀ exchange ∈ LinePlay.exchanges setup first lines, Game.Live setup first exchange.1) ∧
    ∀ events, ∀ exchange ∈ ScreenPlay.exchanges setup first events, Game.Live setup first exchange.1 := by
  obtain ⟨dialogue, compiled, _, rfl⟩ := Cli.openGame_ok opened
  refine ⟨?_, ?_, ?_⟩
  · intro game live
    have stands := live.stands compiled
    constructor
    · rcases game.load_cases compiled with found | ⟨none, failure, failed, _⟩
      · exact .inl found
      · exact .inr ⟨none, failure, failed⟩
    · exact ⟨rfl, rfl⟩
    · exact game.restart_of_compile compiled
    · intro action next failure performed
      obtain ⟨session, _, told⟩ := Game.failed_of_perform? compiled performed
      have behind : next.session.Stands dialogue := session ▸ stands.session
      obtain ⟨goes, kept⟩ := Game.step_of_perform? (answered_of_compile compiled) performed behind
      refine ⟨session, ?_, ?_⟩
      · intro text shown asked
        obtain ⟨going, same, reported⟩ := LinePlay.goes_on performed told goes asked shown
        exact ⟨going, (congrArg Game.session same).trans (kept.trans session), reported⟩
      · intro key panel asked
        obtain ⟨going, same, reported⟩ := ScreenPlay.goes_on performed told goes asked panel
        exact ⟨going, (congrArg Game.session same).trans (kept.trans session), reported⟩
  · intro lines
    rw [(LinePlay.run_agrees setup _ lines).2]
    exact Game.live_exchanges setup _ _
  · intro events
    rw [(ScreenPlay.run_agrees setup _ events).2]
    exact Game.live_exchanges setup _ _

/-- Where a ferry would be saved, somebody has made a folder. -/
def blockedDisk : Disk := ⟨.file "ferry.qdl" ferrySource.toUTF8 (.folder "ferry.json" .empty .empty), some []⟩

/-- A game that somebody else saved, from the second branch. -/
def ferrySaved : SavedGame := ⟨"/ferry.qdl", ["buy"], false, "deck"⟩

theorem load_ferrySaved :
    SavedGame.load (ferrySaved.save ferryDisk "/ferry.json").1 "/ferry.json" = .ok ferrySaved := by
  have room : (ferryDisk.save "/ferry.json" ByteArray.empty).2 = .ok () := by rfl
  have saves := (ferrySaved.save_ok_iff ferryDisk "/ferry.json").mpr (Disk.save_ok_other room _)
  rcases ferrySaved.save_cases ferryDisk "/ferry.json" with ⟨after, stored, _, loaded⟩ | ⟨after, fault, stopped, _⟩
  · rwa [stored]
  · rw [stopped] at saves
    cases saves

theorem actions_all_or_nothing_on_ferry :
    let first : Game := ⟨.start ferry, .start 0, ferryDisk⟩
    let blocked : Game := ⟨.start ferry, .start 2, blockedDisk⟩
    let found : Game := ⟨.start ferry, .start 2, (ferrySaved.save ferryDisk "/ferry.json").1⟩
    Cli.openGame ferryDisk ⟨"ferry.qdl", ["buy"], false⟩ (some "/ferry.json") = .ok (ferrySetup, first) ∧
      Game.Live ferrySetup first blocked ∧ Game.ActsWhole ferrySetup first blocked ∧
      (blocked.save ferrySetup).2.isOk = false ∧ (blocked.load ferrySetup).2.isOk = false ∧
      Game.Live ferrySetup first found ∧ Game.ActsWhole ferrySetup first found ∧
      found.load ferrySetup =
        ({ found with session := ⟨ferry.moveTo "deck", 0⟩ }, .ok "loaded from /ferry.json") := by
  intro first blocked found
  have opened : Cli.openGame ferryDisk ⟨"ferry.qdl", ["buy"], false⟩ (some "/ferry.json")
      = .ok (ferrySetup, first) := by rfl
  have phase : (Session.start ferry).phase = .ok (.choosing ferryBranches[0]) := by rfl
  have turned : first.turn = .stay { first with cursor := .start 2 } [] := by
    rw [Game.turn, Game.beginTurn_of_choosing phase]
    rfl
  have begun : Game.Live ferrySetup first { first with cursor := .start 2 } := by
    have begun := @Game.Live.begun ferrySetup first
    rw [turned] at begun
    exact begun rfl
  have whole := (actions_all_or_nothing opened).1
  have stopped : Game.Live ferrySetup first blocked := begun.disturbed blockedDisk
  have sails : Game.Live ferrySetup first found := begun.disturbed _
  have loads : found.load ferrySetup =
      ({ found with session := ⟨ferry.moveTo "deck", 0⟩ }, .ok "loaded from /ferry.json") := by
    rcases (whole found sails).loads with ⟨saved, loaded, _, _, took⟩ | ⟨none, _⟩
    · cases load_ferrySaved.symm.trans loaded
      exact took
    · exact absurd (.inr (by decide)) (none ferrySaved load_ferrySaved rfl)
  exact ⟨opened, stopped, whole blocked stopped, by rfl, by rfl, sails, whole found sails, loads⟩

end Parley
