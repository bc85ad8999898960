import Parley.Proofs.Player.FullScreen
import Parley.Proofs.Player.LineMode

namespace Parley

/-- What a player shows makes no difference to the exit code, the log and the disk. -/
theorem Cli.conclude_alike (output other : String) (frames shots : List (List Line)) (disk : Disk)
    (overwrites : List Overwrite) (ending : Option Ending) :
    let first := conclude output frames disk overwrites ending
    let second := conclude other shots disk overwrites ending
    first.code = second.code ∧ first.warnings = second.warnings ∧ first.disk = second.disk := by
  cases ending with
  | none => exact ⟨rfl, rfl, rfl⟩
  | some last => cases last <;> exact ⟨rfl, rfl, rfl⟩

/-- A full-screen run that ends the program, and a line-mode run on lines that say what it hands to the
game. Both end in the same way with the same game, on the same disk, after the same exchanges, and report
the same statuses: line mode on the lines with a star, the screen on the panel that is drawn next. -/
theorem modes_agree (setup : Setup) (game : Game) (events : List Event) (lines : List String)
    (ended : (ScreenPlay.run setup game events).ending = some last)
    (typed : lines.map Input.ofLine = ScreenPlay.inputs setup game events) :
    let screen := ScreenPlay.run setup game events
    let line := LinePlay.run setup game lines
    line.ending = some last ∧ line.state.game = screen.state.game ∧
    line.overwrites = screen.overwrites ∧
    LinePlay.exchanges setup game lines = ScreenPlay.exchanges setup game events ∧
    line.shown.filter LinePlay.reports
      = (ScreenPlay.exchanges setup game events).filterMap (fun exchange =>
          (exchange.1.status? setup exchange.2).bind LinePlay.report?) ∧
    (∀ moment ∈ ScreenPlay.moments setup game events, ∀ input status,
      moment.1.handed? moment.2 = some input → moment.1.game.status? setup input = some status →
        (ScreenPlay.respond setup moment.1 moment.2).shown.head?.map Panel.status
          = some (if status.isEmpty then "ready" else status)) ∧
    ∀ width height,
      let stream := Cli.playStream setup game (lines.map .line)
      let terminal := Cli.playTerminal setup game width height events
      stream.code = terminal.code ∧ stream.warnings = terminal.warnings ∧
        stream.disk = terminal.disk := by
  intro screen line
  obtain ⟨shared, exchanged⟩ := ScreenPlay.run_agrees setup game events
  obtain ⟨spoken, said⟩ := LinePlay.run_agrees setup game lines
  rw [typed] at spoken said
  have ending : line.ending = some last := (spoken.ending.trans shared.ending.symm).trans ended
  have state : line.state.game = screen.state.game := spoken.state.trans shared.state.symm
  have overwrites : line.overwrites = screen.overwrites :=
    spoken.overwrites.trans shared.overwrites.symm
  have exchanges := said.trans exchanged.symm
  refine ⟨ending, state, overwrites, exchanges, ?_, ?_, ?_⟩
  · rw [← exchanges]
    exact LinePlay.filter_shown_run setup game lines
  · intro moment _ input status handed answered
    exact ScreenPlay.head?_shown_respond handed answered
  · intro width height stream terminal
    have streamed : stream = Cli.conclude (String.join line.shown) [] screen.state.game.disk
        screen.overwrites screen.ending := by
      change Cli.playStream setup game (lines.map .line) = _
      rw [Cli.playStream_lines, LinePlay.toEnd_of_ending ending, ← overwrites, ← state, ended, ← ending]
    rw [streamed]
    exact Cli.conclude_alike _ _ _ _ _ _ _

/-- A load fails, the game is saved and played to its end; some keys come before the message is out, and
some mean nothing. -/
def crossing : List Event :=
  [.press ⟨.down, false⟩, .tick, .press ⟨.enter, false⟩, .press ⟨.char 'l', false⟩, .lull,
    .press ⟨.char 's', false⟩, .press ⟨.char 'h', false⟩, .notice, .press ⟨.other, true⟩,
    .press ⟨.enter, false⟩, .press ⟨.enter, false⟩, .press ⟨.char ' ', false⟩, .press ⟨.up, false⟩,
    .press ⟨.char 'c', true⟩]

theorem modes_agree_on_ferry :
    let screen := ScreenPlay.run ferrySetup ferryGame crossing
    let lines := (ScreenPlay.inputs ferrySetup ferryGame crossing).map Input.line
    let line := LinePlay.run ferrySetup ferryGame lines
    lines = [":load", ":save", "what", "", "", "k", ":quit"] ∧ screen.ending = some .left ∧
    lines.map Input.ofLine = ScreenPlay.inputs ferrySetup ferryGame crossing ∧
    line.ending = some .left ∧ line.state.game = screen.state.game ∧
    line.overwrites = screen.overwrites ∧
    LinePlay.exchanges ferrySetup ferryGame lines
      = ScreenPlay.exchanges ferrySetup ferryGame crossing := by
  intro screen lines line
  have spelled : lines = [":load", ":save", "what", "", "", "k", ":quit"] := by decide +kernel
  have ended : screen.ending = some .left := by decide +kernel
  have typed := Input.map_ofLine_line (ScreenPlay.inputs ferrySetup ferryGame crossing)
  obtain ⟨ending, state, overwrites, exchanges, _⟩ :=
    modes_agree ferrySetup ferryGame crossing lines ended typed
  exact ⟨spelled, ended, typed, ending, state, overwrites, exchanges⟩

end Parley
