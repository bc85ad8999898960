import Parley.Player.FullScreen
import Parley.Proofs.Player.Game
import Parley.Proofs.Player.Panel

namespace Parley

/-- The inputs that steer through the responses, which are not on show before the message is out. -/
def Input.steers : Input → Bool
  | .key .up | .key .down | .key .confirm => true
  | .key .other | .action _ => false

namespace ScreenPlay

variable {setup : Setup} {play : ScreenPlay} {event : Event} {input : Input}

/-- The input that an event hands to the game. Help stays with the screen, and so does steering while the
message is being typed. -/
def handed? (play : ScreenPlay) : Event → Option Input
  | .press key =>
    let input := Input.ofPress key
    if input = .action .help || (play.panel.isTyping && input.steers) then none else some input
  | .tick | .lull | .notice => none

/-- Steering that is not kept comes after the message. -/
theorem typed_of_steers (steers : input.steers = true)
    (free : play.panel.isTyping = true → input.steers = false) : play.panel.isTyping = false := by
  rw [← Bool.not_eq_true]
  intro typing
  rw [free typing] at steers
  cases steers

theorem press_of_free (request : input ≠ .action .help)
    (free : play.panel.isTyping = true → input.steers = false) :
    press setup play input = receive setup play input := by
  cases input with
  | key key =>
    cases key with
    | other => rfl
    | up | down | confirm =>
      rw [press, typed_of_steers rfl free]
      rfl
  | action action =>
    cases action with
    | help => exact absurd rfl request
    | save | load | restart | quit => rfl

theorem press_of_kept (setup : Setup)
    (kept : input = .action .help ∨ (play.panel.isTyping = true ∧ input.steers = true)) :
    ∃ panel, play.panel.Redraws panel ∧ press setup play input = draw { play with panel } := by
  rcases kept with rfl | ⟨typing, steers⟩
  · exact ⟨_, play.panel.toggleHelp_redraws, rfl⟩
  · cases input with
    | action action => cases steers
    | key key =>
      cases key with
      | other => cases steers
      | confirm => exact ⟨_, Panel.finishTyping_redraws typing, by rw [press, if_pos typing]⟩
      | up | down => exact ⟨_, play.panel.status_redraws _, by rw [press, if_pos typing]⟩

theorem ticks_eq (count : Nat) (play : ScreenPlay) :
    ∃ panel shown, play.panel.Redraws panel ∧ shown.getLast?.getD play.panel = panel ∧
      ticks count play = .stay { play with panel } shown := by
  induction count generalizing play with
  | zero => exact ⟨play.panel, [], .refl _, rfl, rfl⟩
  | succ count ih =>
    obtain ⟨panel, shown, redraws, last, ticked⟩ := ih { play with panel := play.panel.tick }
    refine ⟨panel, play.panel.tick :: shown, play.panel.tick_redraws.trans redraws, ?_, ?_⟩
    · rw [List.getLast?_cons]
      exact last
    · change Step.andThen (tick play) (ticks count) = _
      rw [tick, draw, Step.andThen_of_going rfl, Step.stay, ticked]
      rfl

theorem eq_press_of_handed (handed : play.handed? event = some input) :
    (∃ key, event = .press key ∧ Input.ofPress key = input) ∧ input ≠ .action .help ∧
      (play.panel.isTyping = true → input.steers = false) := by
  cases event with
  | press key =>
    simp only [handed?, Bool.or_eq_true, decide_eq_true_eq, Bool.and_eq_true] at handed
    split at handed
    · cases handed
    · rename_i free
      cases handed
      rw [not_or] at free
      refine ⟨⟨key, rfl, rfl⟩, free.1, ?_⟩
      intro typing
      simpa [typing] using free.2
  | tick | lull | notice => cases handed

theorem respond_of_handed (setup : Setup) (handed : play.handed? event = some input) :
    respond setup play event = receive setup play input := by
  obtain ⟨⟨key, rfl, rfl⟩, request, free⟩ := eq_press_of_handed handed
  exact press_of_free request free

/-- What is kept from the game does no more than redraw the panel. -/
theorem respond_of_kept (setup : Setup) (kept : play.handed? event = none) :
    ∃ panel shown, play.panel.Redraws panel ∧ shown.getLast?.getD play.panel = panel ∧
      respond setup play event = .stay { play with panel } shown := by
  cases event with
  | press key =>
    simp only [handed?, Bool.or_eq_true, decide_eq_true_eq, Bool.and_eq_true] at kept
    split at kept
    · rename_i held
      obtain ⟨panel, redraws, pressed⟩ := press_of_kept setup held
      exact ⟨panel, [panel], redraws, rfl, pressed⟩
    · cases kept
  | tick => exact ⟨_, _, play.panel.tick_redraws, rfl, rfl⟩
  | lull => exact ticks_eq _ play
  | notice => exact ⟨play.panel, [play.panel], .refl _, rfl, rfl⟩

section

variable {next : Game}

theorem receive_of_error {failure : Failure}
    (responded : play.game.respond setup input = .error failure) :
    receive setup play input = ⟨play, [], [], some (.failed failure)⟩ := by
  rw [receive, responded]

theorem receive_of_left (responded : play.game.respond setup input = .ok (.left, next)) :
    receive setup play input = ⟨{ play with game := next }, [], [], some .left⟩ := by
  rw [receive, responded]

theorem receive_of_vain (responded : play.game.respond setup input = .ok (.vain, next)) :
    receive setup play input = draw
      ⟨next, { play.panel with status := "dialogue ended: r restart | l load | q quit" }⟩ := by
  rw [receive, responded]

theorem receive_of_pointed (responded : play.game.respond setup input = .ok (.pointed, next))
    (phase : next.session.phase = .ok (.choosing branch)) :
    receive setup play input = draw ⟨next, play.panel.showBranch branch next.cursor.index⟩ := by
  rw [receive, responded]
  simp only [phase]

def reporting (panel : Panel) (input : Input) (status : String) : Panel :=
  (if renews input then panel.beginTurn else panel).report status

theorem receive_of_finished
    (responded : play.game.respond setup input = .ok (.finished status overwrites, next)) :
    receive setup play input
      = Step.andThen ⟨⟨next, reporting play.panel input status⟩, [reporting play.panel input status],
          overwrites, none⟩ beginTurn := by
  rw [receive, responded]
  rfl

end

theorem beginTurn_agrees (play : ScreenPlay) :
    Step.Agrees (ScreenPlay.game · = ·) (beginTurn play) play.game.turn := by
  unfold beginTurn Game.turn
  cases play.game.beginTurn with
  | error failure => exact ⟨rfl, rfl, rfl⟩
  | ok began =>
    obtain ⟨phase, game⟩ := began
    cases phase <;> exact ⟨rfl, rfl, rfl⟩

theorem receive_agrees (setup : Setup) (play : ScreenPlay) (input : Input) :
    Step.Agrees (ScreenPlay.game · = ·) (receive setup play input) (play.game.step setup input) := by
  unfold receive Game.step
  cases play.game.respond setup input with
  | error failure => exact ⟨rfl, rfl, rfl⟩
  | ok answer =>
    obtain ⟨reply, next⟩ := answer
    cases reply with
    | left | vain => exact ⟨rfl, rfl, rfl⟩
    | pointed =>
      dsimp only
      split <;> exact ⟨rfl, rfl, rfl⟩
    | finished status overwrites =>
      have agrees := beginTurn_agrees ⟨next, reporting play.panel input status⟩
      exact ⟨agrees.state, congrArg (overwrites ++ ·) agrees.overwrites, agrees.ending⟩

/-- A game played on a screen: its first turn, and what comes of the events after it. -/
def run (setup : Setup) (game : Game) (events : List Event) : Step ScreenPlay Panel :=
  (start game).followedBy (respond setup) events

/-- The events of a run that the player looks at, each with the state that it finds. -/
def moments (setup : Setup) (game : Game) (events : List Event) : List (ScreenPlay × Event) :=
  Step.moments (respond setup) (start game) events

def inputs (setup : Setup) (game : Game) (events : List Event) : List Input :=
  Step.seen handed? (respond setup) (start game) events

def exchanges (setup : Setup) (game : Game) (events : List Event) : List (Game × Input) :=
  Step.seen (fun play event => (play.handed? event).map fun input => (play.game, input)) (respond setup)
    (start game) events

theorem run_agrees (setup : Setup) (game : Game) (events : List Event) :
    Step.Agrees (ScreenPlay.game · = ·) (run setup game events)
        (game.run setup (inputs setup game events)) ∧
      exchanges setup game events = game.exchanges setup (inputs setup game events) := by
  apply Step.Agrees.followedBy_handed (Game.step setup) handed?
  · intro play event kept
    obtain ⟨panel, shown, _, _, same⟩ := respond_of_kept setup kept
    rw [same]
    exact ⟨rfl, rfl, rfl⟩
  · intro play event input handed
    rw [respond_of_handed setup handed]
    exact receive_agrees setup play input
  · exact beginTurn_agrees ⟨game, .start⟩

/-- The status of an input that finishes a turn is on the next panel that is drawn. -/
theorem head?_shown_respond (handed : play.handed? event = some input)
    (answered : play.game.status? setup input = some status) :
    (respond setup play event).shown.head?.map Panel.status
      = some (if status.isEmpty then "ready" else status) := by
  rw [respond_of_handed setup handed]
  cases responded : play.game.respond setup input with
  | error failure => simp [Game.status?, responded] at answered
  | ok answer =>
    obtain ⟨reply, next⟩ := answer
    cases reply with
    | left | vain | pointed => simp [Game.status?, responded] at answered
    | finished reported overwrites =>
      simp only [Game.status?, responded, Option.some.injEq] at answered
      rw [receive_of_finished responded, Step.andThen_of_going rfl, ← answered]
      rfl

end ScreenPlay

end Parley
