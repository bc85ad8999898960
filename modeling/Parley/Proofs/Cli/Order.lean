import Parley.Cli.Run
import Parley.Proofs.Files.Order
import Parley.Proofs.Player.FullScreen
import Parley.Proofs.Player.Loading

namespace Parley

theorem Step.followedBy_preserves {State Shown Event : Type} {respond : State → Event → Step State Shown}
    {first : Step State Shown} {Holds : State → Prop}
    (preserves : ∀ state event, Holds state → Holds (respond state event).state) (start : Holds first.state)
    (events : List Event) : Holds (first.followedBy respond events).state := by
  induction events generalizing first with
  | nil =>
    rw [followedBy_nil]
    exact start
  | cons event rest ih =>
    cases ended : first.ending with
    | some last =>
      rw [followedBy_of_ending ended]
      exact start
    | none =>
      rw [followedBy_cons, andThen_of_going ended]
      exact ih (preserves first.state event start)

theorem SavedGame.save_ordered (saved : SavedGame) {disk : Disk} (ordered : disk.Ordered) (path : String) :
    (saved.save disk path).1.Ordered :=
  ordered.save path saved.render.toUTF8

namespace Game

theorem step_ordered (setup : Setup) {game : Game} (ordered : game.disk.Ordered) (input : Input) :
    (game.step setup input).state.disk.Ordered := by
  by_cases saves : input = .action .save
  · rw [saves, disk_step_save]
    exact (setup.saved game.session).save_ordered ordered setup.saveFile
  · rw [disk_step setup game saves]
    exact ordered

theorem turn_ordered {game : Game} (ordered : game.disk.Ordered) : game.turn.state.disk.Ordered := by
  rw [disk_turn]
  exact ordered

end Game

theorem LinePlay.respond_ordered (setup : Setup) (play : LinePlay) (typed : Typed)
    (ordered : play.game.disk.Ordered) : (respond setup play typed).state.game.disk.Ordered := by
  cases typed with
  | closed | garbled => exact ordered
  | line text =>
    have same : (respond setup play (.line text)).state.game = _ := (read_agrees setup play text).state
    rw [same]
    exact Game.step_ordered setup ordered _

theorem ScreenPlay.respond_ordered (setup : Setup) (play : ScreenPlay) (event : Event)
    (ordered : play.game.disk.Ordered) : (respond setup play event).state.game.disk.Ordered := by
  cases handed : play.handed? event with
  | none =>
    obtain ⟨panel, shown, _, _, kept⟩ := respond_of_kept setup handed
    rw [kept]
    exact ordered
  | some input =>
    rw [respond_of_handed setup handed, (receive_agrees setup play input).state]
    exact Game.step_ordered setup ordered input

namespace Cli

variable {disk : Disk} {outcome : Outcome}

theorem disk_conclude (output : String) (frames : List (List Line)) (disk : Disk) (overwrites : List Overwrite)
    (ending : Option Ending) : (conclude output frames disk overwrites ending).disk = disk := by
  unfold conclude
  split <;> rfl

theorem emit_ordered (ordered : disk.Ordered) (setup : Setup) (session : Session) (external : Option Directive)
    (overwrites : List Overwrite) : (emit disk setup session external overwrites).disk.Ordered := by
  have saved := (setup.saved session).save_ordered ordered setup.saveFile
  unfold emit
  split
  · exact ordered
  · split
    · split
      · rename_i stopped
        rw [stopped] at saved
        exact saved
      · rename_i stored
        rw [stored] at saved
        exact saved
    · exact ordered

theorem playStream_ordered (setup : Setup) {game : Game} (ordered : game.disk.Ordered) (typed : List Typed) :
    (playStream setup game typed).disk.Ordered := by
  have start : (LinePlay.start game).state.game.disk.Ordered := by
    rw [(LinePlay.start_agrees game).state]
    exact Game.turn_ordered ordered
  rw [playStream, disk_conclude]
  exact Step.followedBy_preserves (LinePlay.respond_ordered setup) start _

theorem playTerminal_ordered (setup : Setup) {game : Game} (ordered : game.disk.Ordered) (width height : Nat)
    (events : List Event) : (playTerminal setup game width height events).disk.Ordered := by
  have start : (ScreenPlay.start game).state.game.disk.Ordered := by
    have same : (ScreenPlay.start game).state.game = _ := (ScreenPlay.beginTurn_agrees ⟨game, .start⟩).state
    rw [same]
    exact Game.turn_ordered ordered
  rw [playTerminal, disk_conclude]
  exact Step.followedBy_preserves (ScreenPlay.respond_ordered setup) start events

theorem startGame_ordered (ordered : disk.Ordered) {compiling : Compiling} {saveTo : String}
    (ran : startGame disk compiling saveTo = .ok outcome) : outcome.disk.Ordered := by
  obtain ⟨script, _, ran⟩ := bind_ok ran
  obtain ⟨session, _, ran⟩ := bind_ok ran
  cases ran
  exact emit_ordered ordered _ _ _ _

theorem chooseOnce_ordered (ordered : disk.Ordered) {saveFrom saveTo : String} {choice : Nat}
    (ran : chooseOnce disk saveFrom choice saveTo = .ok outcome) : outcome.disk.Ordered := by
  obtain ⟨saved, _, ran⟩ := bind_ok ran
  obtain ⟨script, _, ran⟩ := bind_ok ran
  obtain ⟨session, _, ran⟩ := bind_ok ran
  obtain ⟨taken, _, ran⟩ := bind_ok ran
  cases ran
  exact emit_ordered ordered _ _ _ _

theorem playGame_ordered (ordered : disk.Ordered) {console : Console} {compiling : Compiling}
    {saveFile : Option String} (ran : playGame disk console compiling saveFile = .ok outcome) :
    outcome.disk.Ordered := by
  obtain ⟨⟨setup, game⟩, opened, ran⟩ := bind_ok ran
  obtain ⟨script, _, opened⟩ := bind_ok opened
  obtain ⟨session, _, opened⟩ := bind_ok opened
  cases opened
  cases console with
  | stream typed =>
    cases ran
    exact playStream_ordered _ ordered typed
  | terminal width height events =>
    cases ran
    exact playTerminal_ordered _ ordered width height events

theorem checkSources_disk {compiling : Compiling} {json : Bool}
    (ran : checkSources disk compiling json = .ok outcome) : outcome.disk = disk := by
  obtain ⟨root, _, ran⟩ := bind_ok ran
  obtain ⟨files, _, ran⟩ := bind_ok ran
  split at ran
  rename_i results stopped _
  cases stopped with
  | none | some failure =>
    cases ran
    rfl

/-- Whatever the arguments and the input are, the folders are in order afterwards if they were before. -/
theorem run_ordered (ordered : disk.Ordered) (console : Console) (arguments : List String) :
    (run disk console arguments).disk.Ordered := by
  unfold run
  split
  · rename_i invocation _
    unfold Invocation.run
    dsimp only
    split
    · rename_i outcome ran
      cases invocation with
      | start compiling saveTo => exact startGame_ordered ordered ran
      | choose saveFrom choice saveTo => exact chooseOnce_ordered ordered ran
      | play compiling saveFile => exact playGame_ordered ordered ran
      | check compiling json =>
        rw [checkSources_disk ran]
        exact ordered
    · exact ordered
  · exact ordered

end Cli

end Parley
