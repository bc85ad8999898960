import Parley.Proofs.Cli.Agent
import Parley.Proofs.Player.Ending
import Parley.Proofs.Player.FullScreen

/-! Loading goes back to the last save. However a game is played, its save file describes where it stood when
it was last saved, and that is a place in the dialogue, so it can always be taken up again. -/

namespace Parley

variable {dialogue : Dialogue}

/-- A place in a dialogue, or its end, can be taken up again once its source is compiled again. -/
theorem Session.resume_of_known (compiled : compile options source = .ok dialogue)
    (known : dialogue.Knows header) :
    Session.resume options source header = .ok ⟨dialogue.moveTo header, 0⟩ := by
  rw [resume, ofSource, compiled, ok_bind, pure_eq_ok, ok_bind, restore_eq]
  exact if_pos known

namespace Setup

def savedAt (setup : Setup) (header : String) : SavedGame :=
  ⟨setup.script.path, setup.options.hostCommands, setup.options.strict, header⟩

theorem resume_savedAt {setup : Setup} (compiled : compile setup.options setup.script.text = .ok dialogue)
    (known : dialogue.Knows header) :
    setup.resume (setup.savedAt header) = .ok ⟨dialogue.moveTo header, 0⟩ := by
  have named : (setup.savedAt header).source = setup.script.path := rfl
  rw [resume, if_pos named]
  exact Session.resume_of_known compiled known

end Setup

namespace Game

variable {setup : Setup} {game next : Game} {input : Input}

def savedHeader? (setup : Setup) : Game × Input → Option String
  | (game, .action .save) =>
    match (game.save setup).2 with
    | .ok _ => some game.session.dialogue.active
    | .error _ => none
  | _ => none

def lastSaved? (setup : Setup) (exchanges : List (Game × Input)) : Option String :=
  (exchanges.filterMap (savedHeader? setup)).getLast?

theorem lastSaved?_snoc (setup : Setup) (exchanges : List (Game × Input)) (exchange : Game × Input) :
    lastSaved? setup (exchanges ++ [exchange])
      = (savedHeader? setup exchange).or (lastSaved? setup exchanges) := by
  rw [lastSaved?, lastSaved?, List.filterMap_append, List.getLast?_append]
  cases saved : savedHeader? setup exchange with
  | none => rw [List.filterMap_cons_none saved]; rfl
  | some header => rw [List.filterMap_cons_some saved]; rfl

theorem savedHeader?_of_other (other : input ≠ .action .save) : savedHeader? setup (game, input) = none := by
  cases input with
  | key key => rfl
  | action action =>
    cases action with
    | save => exact absurd rfl other
    | load | restart | help | quit => rfl

/-- What is saved can be loaded from the disk. A save that fails writes nothing. -/
theorem save_cases (setup : Setup) (game : Game) :
    (savedHeader? setup (game, .action .save) = some game.session.dialogue.active ∧
      SavedGame.load (game.save setup).1.disk setup.saveFile
        = .ok (setup.savedAt game.session.dialogue.active)) ∨
    (savedHeader? setup (game, .action .save) = none ∧ game.disk.Keeps (game.save setup).1.disk none) := by
  rw [savedHeader?, save]
  rcases (setup.saved game.session).save_cases game.disk setup.saveFile with
    ⟨after, saved, _, loaded⟩ | ⟨after, fault, stopped, kept⟩
  · rw [saved]
    exact .inl ⟨rfl, loaded⟩
  · rw [stopped]
    exact .inr ⟨rfl, kept⟩

theorem disk_turn (game : Game) : game.turn.state.disk = game.disk := by
  unfold turn
  match reached : game.session.phase with
  | .error failure => rw [beginTurn_of_error reached]
  | .ok .over =>
    rw [beginTurn_of_over reached]
    rfl
  | .ok (.choosing branch) =>
    rw [beginTurn_of_choosing reached]
    rfl

theorem disk_of_answered (answered : Answered setup game input reply next)
    (other : input ≠ .action .save) : next.disk = game.disk := by
  cases answered with
  | saved disk status => exact absurd rfl other
  | vain | moved | chose | loaded | restarted | unchanged | helped | left => rfl

/-- Only a save writes to the disk. -/
theorem disk_step (setup : Setup) (game : Game) (other : input ≠ .action .save) :
    (game.step setup input).state.disk = game.disk := by
  unfold step
  cases responded : game.respond setup input with
  | error failure => rfl
  | ok answer =>
    obtain ⟨reply, next⟩ := answer
    have kept := disk_of_answered (answered_of_respond responded) other
    cases reply with
    | left | vain | pointed => exact kept
    | finished status overwrites => exact (disk_turn next).trans kept

theorem disk_step_save (setup : Setup) (game : Game) :
    (game.step setup (.action .save)).state.disk = (game.save setup).1.disk := by
  have reported : ∃ status, game.respond setup (.action .save)
      = .ok (.finished status [], (game.save setup).1) := by
    rw [respond]
    obtain ⟨next, result⟩ := game.save setup
    cases result with
    | ok status => exact ⟨status, rfl⟩
    | error failure => exact ⟨failure.message, rfl⟩
  obtain ⟨status, saved⟩ := reported
  rw [step, saved]
  exact disk_turn _

/-- What the exchanges before a game have saved is what would be loaded there. -/
def Recalls (setup : Setup) (dialogue : Dialogue) (past : List (Game × Input)) (game : Game) : Prop :=
  ∀ header, lastSaved? setup past = some header →
    SavedGame.load game.disk setup.saveFile = .ok (setup.savedAt header) ∧ dialogue.Knows header

/-- The step of the invariant: a save replaces what is recalled, if it succeeds, and nothing else does. -/
theorem Recalls.step {past : List (Game × Input)} (recalls : game.Recalls setup dialogue past)
    (stands : game.session.Stands dialogue) (input : Input) :
    (game.step setup input).state.Recalls setup dialogue (past ++ [(game, input)]) := by
  intro header last
  rw [lastSaved?_snoc] at last
  by_cases saves : input = .action .save
  · rw [saves] at last ⊢
    rw [disk_step_save]
    rcases game.save_cases setup with ⟨saved, loaded⟩ | ⟨unsaved, kept⟩
    · rw [saved] at last
      cases last
      exact ⟨loaded, stands.known⟩
    · rw [unsaved, Option.none_or] at last
      obtain ⟨loaded, known⟩ := recalls header last
      obtain ⟨text, read, told⟩ := SavedGame.load_ok_iff.mp loaded
      exact ⟨SavedGame.load_ok_iff.mpr ⟨text, kept.read read, told⟩, known⟩
  · rw [savedHeader?_of_other saves, Option.none_or] at last
    rw [disk_step setup game saves]
    exact recalls header last

/-- Wherever an input finds a game, the last save can be recalled. -/
theorem recalls_of_exchanges (compiled : compile setup.options setup.script.text = .ok dialogue)
    (disk : Disk) {inputs : List Input} {before after : List (Game × Input)} {exchange : Game × Input}
    (split : exchanges setup ⟨.start dialogue, .start 0, disk⟩ inputs = before ++ exchange :: after) :
    exchange.1.Stands dialogue ∧ exchange.1.Recalls setup dialogue before := by
  have steps (past : List (Game × Input)) (game : Game) (input : Input)
      (holds : game.Stands dialogue ∧ game.Recalls setup dialogue past)
      (going : (game.step setup input).ending = none) :
      (game.step setup input).state.Stands dialogue ∧
        (game.step setup input).state.Recalls setup dialogue (past ++ [(game, input)]) :=
    ⟨holds.1.step compiled going, holds.2.step holds.1.session input⟩
  let game : Game := ⟨.start dialogue, .start 0, disk⟩
  have start (going : game.turn.ending = none) :
      game.turn.state.Stands dialogue ∧ game.turn.state.Recalls setup dialogue [] := by
    refine ⟨stands_turn compiled disk going, ?_⟩
    intro header last
    cases last
  exact Step.moments_keep_past steps start split

/-- Where a save can be recalled, loading succeeds, and the game goes on where it was saved. -/
theorem load_of_recalls (compiled : compile setup.options setup.script.text = .ok dialogue)
    (loaded : SavedGame.load game.disk setup.saveFile = .ok (setup.savedAt header))
    (known : dialogue.Knows header) :
    game.respond setup (.action .load) = .ok (.finished s!"loaded from {setup.saveFile}" [],
        { game with session := ⟨dialogue.moveTo header, 0⟩ }) ∧
      (game.step setup (.action .load)).ending = none ∧
      (game.step setup (.action .load)).state.session = ⟨dialogue.moveTo header, 0⟩ := by
  have answered : game.respond setup (.action .load) = .ok (.finished s!"loaded from {setup.saveFile}" [],
      { game with session := ⟨dialogue.moveTo header, 0⟩ }) := by
    rw [respond, load, loaded, ok_bind, setup.resume_savedAt compiled known]
    rfl
  refine ⟨answered, ?_⟩
  have stands : Session.Stands dialogue ⟨dialogue.moveTo header, 0⟩ := ⟨rfl, known⟩
  rw [step, answered]
  exact turn_of_phase (stands.phase (answered_of_compile compiled))

/-- A save that succeeds saves where the game stands, and can be loaded from the disk that it leaves. -/
theorem load_of_saved (saved : savedHeader? setup (game, .action .save) = some header) :
    header = game.session.dialogue.active ∧
      SavedGame.load (game.save setup).1.disk setup.saveFile = .ok (setup.savedAt header) := by
  rcases game.save_cases setup with ⟨here, loaded⟩ | ⟨unsaved, _⟩
  · rw [saved] at here
    cases here
    exact ⟨rfl, loaded⟩
  · rw [saved] at unsaved
    cases unsaved

/-- A save file serves the agent for as long as it and the source are what they were. -/
theorem resumable_of_saved (compiled : compile setup.options setup.script.text = .ok dialogue)
    (absolute : Path.isAbsolute setup.script.path = true) (known : dialogue.Knows header)
    (saved : savedHeader? setup (game, .action .save) = some header) {later : Disk}
    (kept : later.read setup.saveFile = (game.save setup).1.disk.read setup.saveFile)
    (unchanged : later.read setup.script.path = .ok setup.script.text) :
    Cli.Resumable later setup.saveFile setup.script setup.options ⟨dialogue.moveTo header, 0⟩ := by
  obtain ⟨text, read, told⟩ := SavedGame.load_ok_iff.mp (load_of_saved saved).2
  constructor
  · exact SavedGame.load_ok_iff.mpr ⟨text, kept.trans read, told⟩
  · exact Script.load_of_read absolute unchanged
  · exact ⟨0, Session.resume_of_known compiled known⟩

/-- What loading does in the course of a game, and what its saves are good for: a load behind a save takes
the game back to the header that was saved last, with no turns taken, and from every save the agent takes up
the game as long as the source is what it was. -/
structure Reloads (setup : Setup) (dialogue : Dialogue) (exchanges : List (Game × Input)) : Prop where
  loads : ∀ before game after header, exchanges = before ++ (game, .action .load) :: after →
    lastSaved? setup before = some header →
      game.respond setup (.action .load) = .ok (.finished s!"loaded from {setup.saveFile}" [],
          { game with session := ⟨dialogue.moveTo header, 0⟩ }) ∧
        (game.step setup (.action .load)).ending = none ∧
        (game.step setup (.action .load)).state.session = ⟨dialogue.moveTo header, 0⟩
  resumes : ∀ game header, (game, .action .save) ∈ exchanges →
    savedHeader? setup (game, .action .save) = some header →
      ∀ later : Disk, later.read setup.saveFile = (game.save setup).1.disk.read setup.saveFile →
        later.read setup.script.path = .ok setup.script.text →
        Session.resume setup.options setup.script.text header = .ok ⟨dialogue.moveTo header, 0⟩ ∧
        ∀ console choice saveTo,
          (Cli.Invocation.choose setup.saveFile choice saveTo).run later console
            = Cli.respond later ⟨setup.script, setup.options, saveTo⟩
                (Session.choose ⟨dialogue.moveTo header, 0⟩ choice)

theorem reloads_exchanges (compiled : compile setup.options setup.script.text = .ok dialogue)
    (absolute : Path.isAbsolute setup.script.path = true) (disk : Disk) (inputs : List Input) :
    Reloads setup dialogue (exchanges setup ⟨.start dialogue, .start 0, disk⟩ inputs) := by
  constructor
  · intro before game after header split last
    obtain ⟨_, recalls⟩ := recalls_of_exchanges compiled disk split
    obtain ⟨loaded, known⟩ := recalls header last
    exact load_of_recalls compiled loaded known
  · intro game header looked saved later kept unchanged
    have stands := exchanges_stand compiled disk inputs _ looked
    have known : dialogue.Knows header := by
      rw [(load_of_saved saved).1]
      exact stands.session.known
    refine ⟨Session.resume_of_known compiled known, ?_⟩
    intro console choice saveTo
    exact Cli.run_choose (resumable_of_saved compiled absolute known saved kept unchanged) console choice saveTo

end Game

theorem Cli.openGame_ok {disk : Disk} {compiling : Compiling} {saveFile : Option String} {setup : Setup}
    {game : Game} (opened : openGame disk compiling saveFile = .ok (setup, game)) :
    ∃ dialogue, compile setup.options setup.script.text = .ok dialogue ∧
      Path.isAbsolute setup.script.path = true ∧ game = ⟨.start dialogue, .start 0, disk⟩ := by
  obtain ⟨script, loaded, opened⟩ := bind_ok opened
  obtain ⟨session, started, opened⟩ := bind_ok opened
  obtain ⟨dialogue, compiled, started⟩ := bind_ok started
  cases opened
  cases started
  exact ⟨dialogue, compiled, (Script.resolve_ok (Script.load_ok loaded).1).1, rfl⟩

/-- Loading returns to the last save, in either mode of the player, whatever was done before it: the game is
found in the same dialogue, with no turns taken, at the header that was saved last, also where that is the
end. Every save file that is written on the way is taken up by the agent. -/
theorem load_returns_to_last_save {disk : Disk} {compiling : Cli.Compiling} {saveFile : Option String}
    {setup : Setup} {game : Game} (opened : Cli.openGame disk compiling saveFile = .ok (setup, game)) :
    (∀ lines, Game.Reloads setup game.session.dialogue (LinePlay.exchanges setup game lines)) ∧
    ∀ events, Game.Reloads setup game.session.dialogue (ScreenPlay.exchanges setup game events) := by
  obtain ⟨dialogue, compiled, absolute, rfl⟩ := Cli.openGame_ok opened
  constructor
  · intro lines
    rw [(LinePlay.run_agrees setup _ lines).2]
    exact Game.reloads_exchanges compiled absolute disk _
  · intro events
    rw [(ScreenPlay.run_agrees setup _ events).2]
    exact Game.reloads_exchanges compiled absolute disk _

/-- The ferry of `ferrySetup` as a file, with nothing saved yet. -/
def ferryDisk : Disk := ⟨.file "ferry.qdl" ferrySource.toUTF8 .empty, some []⟩

/-- A game is saved once it is over, and loaded after a restart. -/
def returning : List String := ["", "", ":save", ":restart", ":load"]

theorem load_returns_to_last_save_on_ferry :
    let game : Game := ⟨.start ferry, .start 0, ferryDisk⟩
    let exchanges := LinePlay.exchanges ferrySetup game returning
    Cli.openGame ferryDisk ⟨"ferry.qdl", ["buy"], false⟩ (some "/ferry.json") = .ok (ferrySetup, game) ∧
    Game.lastSaved? ferrySetup (exchanges.take 4) = some exitHeader ∧
    ∃ last, exchanges = exchanges.take 4 ++ [(last, .action .load)] ∧
      (last.step ferrySetup (.action .load)).state.session = ⟨ferry.moveTo exitHeader, 0⟩ := by
  intro game exchanges
  have opened : Cli.openGame ferryDisk ⟨"ferry.qdl", ["buy"], false⟩ (some "/ferry.json")
      = .ok (ferrySetup, game) := by rfl
  have saved : Game.lastSaved? ferrySetup (exchanges.take 4) = some exitHeader := by decide +kernel
  have asked : (exchanges.drop 4).map Prod.snd = [.action .load] := by decide +kernel
  obtain ⟨⟨last, _⟩, behind, rfl⟩ := List.map_eq_singleton_iff.mp asked
  have split : exchanges = exchanges.take 4 ++ [(last, .action .load)] := by
    rw [← behind, List.take_append_drop]
  have lines := (load_returns_to_last_save opened).1 returning
  obtain ⟨_, _, loaded⟩ := lines.loads (exchanges.take 4) last [] exitHeader split saved
  exact ⟨opened, saved, last, split, loaded⟩

end Parley
