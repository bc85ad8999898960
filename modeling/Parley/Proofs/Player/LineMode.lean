import Parley.Cli.Run
import Parley.Proofs.Player.Game

namespace Parley

def Input.line : Input → String
  | .key .up => "k"
  | .key .down => "j"
  | .key .confirm => ""
  | .key .other => "what"
  | .action request => ":" ++ request.name

@[simp]
theorem Input.ofLine_line (input : Input) : Input.ofLine input.line = input := by
  cases input with
  | key key => cases key <;> rfl
  | action action => cases action <;> rfl

/-- Whatever is handed to a game can be typed. -/
theorem Input.map_ofLine_line (inputs : List Input) : (inputs.map line).map ofLine = inputs := by
  rw [List.map_map]
  exact (List.map_congr_left fun input _ => ofLine_line input).trans inputs.map_id

namespace LinePlay

def read (setup : Setup) (play : LinePlay) (text : String) : Step LinePlay String :=
  respond setup play (.line text)

def run (setup : Setup) (game : Game) (lines : List String) : Step LinePlay String :=
  (start game).followedBy (read setup) lines

/-- The same, with the end of the input after the last line. -/
def toEnd (setup : Setup) (game : Game) (lines : List String) : Step LinePlay String :=
  (run setup game lines).andThen fun play => respond setup play .closed

section

variable {setup : Setup} {game : Game} {lines : List String}

theorem toEnd_of_ending (ended : (run setup game lines).ending = some last) :
    toEnd setup game lines = run setup game lines := by
  rw [toEnd, Step.andThen_of_ending ended]

/-- Where a run still waits for a line, the end of the input is a way to leave. -/
theorem ending_toEnd_of_going (going : (run setup game lines).ending = none) :
    (toEnd setup game lines).ending = some .left := by
  rw [toEnd, Step.andThen_of_going going]
  rfl

end

def exchanges (setup : Setup) (game : Game) (lines : List String) : List (Game × Input) :=
  (Step.moments (read setup) (start game) lines).map fun moment =>
    (moment.1.game, Input.ofLine moment.2)

theorem beginTurn_agrees (play : LinePlay) :
    Step.Agrees (LinePlay.game · = ·) (beginTurn play) play.game.turn := by
  unfold beginTurn Game.turn
  cases play.game.beginTurn with
  | error failure => exact ⟨rfl, rfl, rfl⟩
  | ok began =>
    obtain ⟨phase, game⟩ := began
    cases phase <;> exact ⟨rfl, rfl, rfl⟩

theorem start_agrees (game : Game) :
    Step.Agrees (LinePlay.game · = ·) (start game) game.turn := by
  have agrees := beginTurn_agrees ⟨game, false⟩
  exact ⟨agrees.state, agrees.overwrites, agrees.ending⟩

theorem receive_agrees (setup : Setup) (play : LinePlay) (input : Input) :
    Step.Agrees (LinePlay.game · = ·) (receive setup play input) (play.game.step setup input) := by
  unfold receive Game.step
  cases play.game.respond setup input with
  | error failure => exact ⟨rfl, rfl, rfl⟩
  | ok answer =>
    obtain ⟨reply, next⟩ := answer
    cases reply with
    | left | vain => exact ⟨rfl, rfl, rfl⟩
    | pointed =>
      dsimp only
      split <;> exact ⟨rfl, rfl, rfl⟩
    | finished status overwrites =>
      have agrees := beginTurn_agrees ⟨next, false⟩
      exact ⟨agrees.state, congrArg (overwrites ++ ·) agrees.overwrites, agrees.ending⟩

theorem read_of_help {text : String} (asked : Input.ofLine text = .action .help) (setup : Setup)
    (play : LinePlay) : read setup play text = .stay play [commandHelp ++ "\n", prompt] := by
  rw [read, respond, asked]

theorem read_of_played {text : String} (other : Input.ofLine text ≠ .action .help) (setup : Setup)
    (play : LinePlay) : read setup play text = receive setup play (Input.ofLine text) := by
  unfold read respond
  dsimp only
  split
  · contradiction
  · rfl

/-- A line does to the game what the input does that it says. -/
theorem read_agrees (setup : Setup) (play : LinePlay) (text : String) :
    Step.Agrees (LinePlay.game · = ·) (read setup play text)
      (play.game.step setup (Input.ofLine text)) := by
  by_cases asked : Input.ofLine text = .action .help
  · rw [read_of_help asked, asked]
    exact ⟨rfl, rfl, rfl⟩
  · rw [read_of_played asked]
    exact receive_agrees setup play (Input.ofLine text)

theorem followedBy_agrees (setup : Setup) {left : Step LinePlay String} {right : Step Game Empty}
    (agrees : Step.Agrees (LinePlay.game · = ·) left right) (lines : List String) :
    Step.Agrees (LinePlay.game · = ·) (left.followedBy (read setup) lines)
        (right.followedBy (Game.step setup) (lines.map Input.ofLine)) ∧
      (Step.moments (read setup) left lines).map (fun moment => (moment.1.game, Input.ofLine moment.2))
        = Step.moments (Game.step setup) right (lines.map Input.ofLine) := by
  have steps : ∀ moment ∈ Step.moments (read setup) left lines, ∀ other,
      moment.1.game = other → Step.Agrees (LinePlay.game · = ·) (read setup moment.1 moment.2)
        (Game.step setup other (Input.ofLine moment.2)) := by
    rintro moment - other rfl
    exact read_agrees setup moment.1 moment.2
  obtain ⟨later, matched⟩ := agrees.followedBy_alike (Game.step setup) Input.ofLine steps
  refine ⟨later, ?_⟩
  rw [← List.forall₂_eq_eq_eq, List.forall₂_map_left_iff]
  exact matched.imp fun moment other same => Prod.ext same.1 same.2

theorem run_agrees (setup : Setup) (game : Game) (lines : List String) :
    Step.Agrees (LinePlay.game · = ·) (run setup game lines)
        (game.run setup (lines.map Input.ofLine)) ∧
      exchanges setup game lines = game.exchanges setup (lines.map Input.ofLine) :=
  followedBy_agrees setup (start_agrees game) lines

def reports (text : String) : Bool := text.toList.head? = some '*'

/-- The text that reports a status, if there is anything to report. -/
def report? (status : String) : Option String :=
  if status.isEmpty then none else some s!"* {status}\n"

theorem reports_responseLines (branch : Branch) (cursor : Nat) :
    reports (responseLines branch cursor) = false := by
  unfold responseLines
  cases branch.responses with
  | nil => rfl
  | cons response rest =>
    rw [List.zipIdx_cons, List.map_cons, String.join_cons, reports, String.toList_append,
      String.toList_append]
    dsimp only
    split <;> rfl

theorem filter_shown_showBranch (branch : Branch) (play : LinePlay) :
    (showBranch branch play).shown.filter reports = [] := by
  have message : reports (if play.messageShown then "" else s!"\n{branch.message}\n") = false := by
    split
    · rfl
    · rw [reports, String.toList_append, String.toList_append]
      rfl
  have asked : reports prompt = false := rfl
  simp [showBranch, Step.stay, message, reports_responseLines, asked]

theorem filter_shown_beginTurn (play : LinePlay) : (beginTurn play).shown.filter reports = [] := by
  unfold beginTurn
  split
  · rfl
  · rfl
  · exact filter_shown_showBranch _ _

theorem filter_shown_start (game : Game) : (start game).shown.filter reports = [] := by
  have heading : reports s!"QDL TUI | {game.session.dialogue.title}\n{commandHelp}\n" = false := by
    simp only [reports, String.toList_append]
    rfl
  change List.filter reports (_ :: (beginTurn ⟨game, false⟩).shown) = []
  rw [List.filter_cons_of_neg (ne_true_of_eq_false heading)]
  exact filter_shown_beginTurn _

/-- Of what an input shows, the status is what begins with a star. -/
theorem filter_shown_receive (setup : Setup) (play : LinePlay) (input : Input) :
    (receive setup play input).shown.filter reports
      = ((play.game.status? setup input).bind report?).toList := by
  unfold receive Game.status?
  cases play.game.respond setup input with
  | error failure => rfl
  | ok answer =>
    obtain ⟨reply, next⟩ := answer
    cases reply with
    | left | vain => rfl
    | pointed =>
      dsimp only
      split
      · exact filter_shown_showBranch _ _
      · rfl
    | finished status overwrites =>
      change (_ ++ (beginTurn ⟨next, false⟩).shown).filter reports = (report? status).toList
      rw [List.filter_append, filter_shown_beginTurn, List.append_nil, report?]
      cases status.isEmpty with
      | true => rfl
      | false =>
        have starred : reports s!"* {status}\n" = true := by
          simp only [reports, String.toList_append]
          rfl
        exact List.filter_cons_of_pos starred

theorem filter_shown_read (setup : Setup) (play : LinePlay) (text : String) :
    (read setup play text).shown.filter reports
      = ((play.game.status? setup (Input.ofLine text)).bind report?).toList := by
  by_cases asked : Input.ofLine text = .action .help
  · rw [read_of_help asked, asked]
    rfl
  · rw [read_of_played asked, filter_shown_receive]

/-- What a run shows with a star are the statuses of its inputs. -/
theorem filter_shown_run (setup : Setup) (game : Game) (lines : List String) :
    (run setup game lines).shown.filter reports
      = (exchanges setup game lines).filterMap fun exchange =>
          (exchange.1.status? setup exchange.2).bind report? := by
  rw [run, Step.shown_followedBy, List.filter_append, filter_shown_start, List.nil_append,
    List.filter_flatMap, exchanges, List.filterMap_map, List.filterMap_eq_flatMap_toList]
  congr 1
  funext moment
  exact filter_shown_read setup moment.1 moment.2

end LinePlay

/-- The program in line mode plays the lines, and then the end of the input. -/
theorem Cli.playStream_lines (setup : Setup) (game : Game) (lines : List String) :
    Cli.playStream setup game (lines.map .line) =
      let last := LinePlay.toEnd setup game lines
      Cli.conclude (String.join last.shown) [] last.state.game.disk last.overwrites last.ending := by
  have played : (LinePlay.start game).followedBy (LinePlay.respond setup) (lines.map .line ++ [.closed])
      = LinePlay.toEnd setup game lines := by
    rw [Step.followedBy_append, Step.followedBy_map]
    rfl
  rw [← played]
  rfl

end Parley
