import Parley.Proofs.Player.FullScreen
import Parley.Proofs.Player.Game

/-! The panel is in step with the game wherever the full-screen mode waits for an event, so what is
confirmed is what was on show. -/

namespace Parley.ScreenPlay

variable {setup : Setup} {play : ScreenPlay} {event : Event} {input : Input}

/-- The panel shows where the game is: the branch with the response at the cursor highlighted, or that the
dialogue is over. -/
inductive InStep (play : ScreenPlay) : Prop
  | ended (waits : play.game.Waits .over) (clears : play.panel.Clears)
  | choosing (waits : play.game.Waits (.choosing branch))
      (lays : play.panel.Lays branch play.game.cursor.index)

theorem InStep.redraw {panel : Panel} (inStep : play.InStep) (redraws : play.panel.Redraws panel) :
    { play with panel }.InStep := by
  cases inStep with
  | ended waits clears => exact .ended waits (redraws.clears clears)
  | choosing waits lays => exact .choosing waits (redraws.lays lays)

theorem InStep.clears_of_finished (inStep : play.InStep)
    (finished : play.game.session.isFinished = true) : play.panel.Clears := by
  cases inStep with
  | ended _ clears => exact clears
  | choosing waits _ =>
    rw [(Session.phase_eq_choosing_iff.mp waits.phase_eq).1] at finished
    cases finished

theorem InStep.lays_of_unfinished (inStep : play.InStep)
    (unfinished : play.game.session.isFinished = false) :
    ∃ branch, play.game.Waits (.choosing branch) ∧ play.panel.Lays branch play.game.cursor.index := by
  cases inStep with
  | ended waits _ =>
    obtain ⟨branch, same⟩ := waits.choosing_of_unfinished unfinished
    cases same
  | choosing waits lays => exact ⟨_, waits, lays⟩

/-- A panel that is not to be laid out anew must already show where the session is. -/
theorem beginTurn_inStep
    (current : play.panel.fresh = true ∨
      ∃ branch cursor, play.game.session.phase = .ok (.choosing branch) ∧ play.panel.Lays branch cursor)
    (going : (beginTurn play).ending = none) : (beginTurn play).state.InStep := by
  match reached : play.game.session.phase with
  | .error failure =>
    rw [beginTurn, Game.beginTurn_of_error reached] at going
    cases going
  | .ok .over =>
    have began := Game.beginTurn_of_over reached
    rw [beginTurn, began]
    exact .ended (Game.waits_of_beginTurn began) (Panel.markEnded_clears play.panel)
  | .ok (.choosing branch) =>
    have began := Game.beginTurn_of_choosing reached
    have answered := (Session.phase_eq_choosing_iff.mp reached).2.2
    rw [beginTurn, began]
    refine .choosing (Game.waits_of_beginTurn began) ?_
    rcases current with fresh | ⟨shown, cursor, same, lays⟩
    · exact Panel.showBranch_lays fresh answered
    · rw [reached] at same
      cases same
      exact lays.showBranch (List.length_pos_iff.mpr answered) fun _ => rfl

theorem start_inStep (game : Game) (going : (start game).ending = none) :
    (start game).state.InStep :=
  beginTurn_inStep (.inl rfl) going

/-- When an input finishes a turn, the panel is to be laid out anew unless the session is the same. -/
theorem renews_of_answered {game next : Game}
    (answered : Game.Answered setup game input (.finished status overwrites) next) :
    renews input = true ∨ next.session = game.session := by
  cases answered with
  | chose | loaded | restarted => exact .inl rfl
  | saved => exact .inr rfl
  | unchanged status request =>
    left
    rcases request with rfl | rfl <;> rfl

/-- Whatever an input does to a game that the panel is in step with, the panel follows. -/
theorem receive_inStep (inStep : play.InStep) (request : input ≠ .action .help)
    (free : play.panel.isTyping = true → input.steers = false)
    (going : (receive setup play input).ending = none) : (receive setup play input).state.InStep := by
  cases responded : play.game.respond setup input with
  | error failure =>
    rw [receive_of_error responded] at going
    cases going
  | ok answer =>
    obtain ⟨reply, next⟩ := answer
    have answered := Game.answered_of_respond responded
    cases reply with
    | left =>
      rw [receive_of_left responded] at going
      cases going
    | vain =>
      cases answered with
      | vain finished =>
        rw [receive_of_vain responded]
        exact inStep.redraw (play.panel.status_redraws _)
    | pointed =>
      cases answered with
      | helped => exact absurd rfl request
      | @moved key unfinished other =>
        obtain ⟨branch, waits, lays⟩ := inStep.lays_of_unfinished unfinished
        have pressed := waits.press key
        have still : play.panel.isTyping = true → (play.game.cursor.press key).index = 0 := by
          intro typing
          have unsteered := free typing
          cases key with
          | other => exact lays.unmoved typing
          | up | down | confirm => cases unsteered
        rw [receive_of_pointed responded waits.phase_eq]
        exact .choosing pressed (lays.showBranch pressed.within still)
    | finished status overwrites =>
      rw [receive_of_finished responded, Step.andThen_of_going rfl] at going ⊢
      refine beginTurn_inStep ?_ going
      cases renewed : renews input with
      | true =>
        left
        simp [reporting, renewed, Panel.report, Panel.beginTurn]
      | false =>
        have same : next.session = play.game.session := by
          simpa [renewed] using renews_of_answered answered
        cases inStep with
        | ended waits clears =>
          left
          simp [reporting, renewed, Panel.report, clears.fresh]
        | @choosing branch waits lays =>
          refine .inr ⟨branch, play.game.cursor.index, ?_, ?_⟩
          · rw [same]
            exact waits.phase_eq
          · rw [reporting, renewed]
            exact (play.panel.report_redraws status).lays lays

/-- The step that every event of a run takes. -/
theorem respond_inStep (inStep : play.InStep) (going : (respond setup play event).ending = none) :
    (respond setup play event).state.InStep := by
  cases handed : play.handed? event with
  | none =>
    obtain ⟨panel, shown, redraws, _, kept⟩ := respond_of_kept setup handed
    rw [kept]
    exact inStep.redraw redraws
  | some input =>
    obtain ⟨_, request, free⟩ := eq_press_of_handed handed
    rw [respond_of_handed setup handed] at going ⊢
    exact receive_inStep inStep request free going

theorem shown_beginTurn (going : (beginTurn play).ending = none) :
    (beginTurn play).shown = [(beginTurn play).state.panel] := by
  unfold beginTurn at going ⊢
  split at going
  · cases going
  · rfl
  · rfl

/-- What an event leads to is shown, if it changes anything. -/
theorem getLast?_shown_respond (going : (respond setup play event).ending = none) :
    (respond setup play event).shown.getLast?.getD play.panel
      = (respond setup play event).state.panel := by
  cases handed : play.handed? event with
  | none =>
    obtain ⟨panel, shown, _, last, kept⟩ := respond_of_kept setup handed
    rw [kept]
    exact last
  | some input =>
    rw [respond_of_handed setup handed] at going ⊢
    cases responded : play.game.respond setup input with
    | error failure =>
      rw [receive_of_error responded] at going
      cases going
    | ok answer =>
      obtain ⟨reply, next⟩ := answer
      cases reply with
      | left =>
        rw [receive_of_left responded] at going
        cases going
      | vain =>
        rw [receive_of_vain responded]
        rfl
      | pointed =>
        rw [receive, responded]
        dsimp only
        split <;> rfl
      | finished status overwrites =>
        rw [receive_of_finished responded, Step.andThen_of_going rfl] at going ⊢
        rw [shown_beginTurn going]
        rfl

/-- Wherever a run waits for an event, the panel is in step with the game. -/
theorem run_inStep {game : Game} {events : List Event} (going : (run setup game events).ending = none) :
    (run setup game events).state.InStep :=
  Step.followedBy_keeps (fun _ _ => respond_inStep) (start_inStep game) going

theorem getLast?_shown_run {game : Game} {events : List Event}
    (going : (run setup game events).ending = none) :
    (run setup game events).shown.getLast? = some (run setup game events).state.panel := by
  refine Step.getLast?_shown_followedBy (fun _ _ => getLast?_shown_respond) ?_ going
  intro began
  rw [start] at began ⊢
  rw [shown_beginTurn began]
  rfl

/-- A confirmation that reaches the game takes the response that the panel highlights, of the branch that
the panel shows. -/
theorem respond_confirm (setup : Setup) (inStep : play.InStep) (handed : play.handed? event = some (.key .confirm))
    (unfinished : play.game.session.isFinished = false) :
    ∃ branch taken, play.game.session.dialogue.activeBranch = .ok branch ∧
      play.panel.Lays branch play.panel.selected ∧
      play.game.cursor.confirmed? .confirm = some play.panel.selected ∧
      play.game.session.choose play.panel.selected = .ok taken ∧
      respond setup play event = Step.andThen
        ⟨⟨{ play.game with session := taken.session },
            play.panel.beginTurn.report (Game.statusOf taken.external)⟩,
          [play.panel.beginTurn.report (Game.statusOf taken.external)], taken.overwrites, none⟩
        beginTurn := by
  obtain ⟨branch, waits, lays⟩ := inStep.lays_of_unfinished unfinished
  obtain ⟨_, active, _⟩ := Session.phase_eq_choosing_iff.mp waits.phase_eq
  obtain ⟨taken, took⟩ := waits.choose
  have confirmed := waits.confirmed?
  have responded := Game.respond_of_confirmed setup unfinished confirmed took
  rw [lays.selected]
  refine ⟨branch, taken, active, lays, confirmed, took, ?_⟩
  rw [respond_of_handed setup handed, receive_of_finished responded]
  rfl

/-- What is confirmed is what was seen. Wherever a run waits for an event, its panel is what was drawn
last; at the end of the dialogue it says so and lists nothing; and a confirmation that is handed to the
session is made on a panel that has the active branch written out, for the response highlighted there. An
event that is kept from the game does not touch it. -/
theorem confirmed_as_shown (setup : Setup) (game : Game) (events : List Event)
    (going : (run setup game events).ending = none) :
    let play := (run setup game events).state
    (run setup game events).shown.getLast? = some play.panel ∧
    (play.game.session.isFinished = true → play.panel.ended = true ∧ play.panel.choices = []) ∧
    (∀ event, play.handed? event = none → (respond setup play event).state.game = play.game ∧
      (respond setup play event).overwrites = [] ∧ (respond setup play event).ending = none) ∧
    ∀ event, play.handed? event = some (.key .confirm) → play.game.session.isFinished = false →
      ∃ branch taken, play.game.session.dialogue.activeBranch = .ok branch ∧
        play.panel.isTyping = false ∧ play.panel.visible = branch.message.toList ∧
        play.panel.ended = false ∧ play.panel.header = branch.header ∧
        play.panel.message = branch.message ∧
        play.panel.choices = branch.responses.map Response.text ∧
        play.game.cursor.confirmed? .confirm = some play.panel.selected ∧
        play.game.session.choose play.panel.selected = .ok taken ∧
        respond setup play event = Step.andThen
          ⟨⟨{ play.game with session := taken.session },
              play.panel.beginTurn.report (Game.statusOf taken.external)⟩,
            [play.panel.beginTurn.report (Game.statusOf taken.external)], taken.overwrites, none⟩
          beginTurn := by
  intro play
  have inStep : play.InStep := run_inStep going
  refine ⟨getLast?_shown_run going, ?_, ?_, ?_⟩
  · intro finished
    have clears := inStep.clears_of_finished finished
    exact ⟨clears.ended, clears.choices⟩
  · intro event kept
    obtain ⟨panel, shown, _, _, same⟩ := respond_of_kept setup kept
    rw [same]
    exact ⟨rfl, rfl, rfl⟩
  · intro event handed unfinished
    obtain ⟨branch, taken, active, lays, confirmed, took, responded⟩ :=
      respond_confirm setup inStep handed unfinished
    obtain ⟨_, _, free⟩ := eq_press_of_handed handed
    have typed := typed_of_steers rfl free
    have written := Panel.visible_of_typed typed
    rw [lays.message] at written
    exact ⟨branch, taken, active, typed, written, lays.going, lays.header, lays.message, lays.choices,
      confirmed, took, responded⟩

/-- A game is saved between two moves, and every key comes after the message. -/
def boarding : List Event :=
  [.notice, .lull, .press ⟨.down, false⟩, .press ⟨.char 's', false⟩, .press ⟨.char 'j', false⟩]

theorem confirmed_as_shown_on_ferry :
    let last := run ferrySetup ferryGame boarding
    last.ending = none ∧ last.state.handed? (.press ⟨.enter, false⟩) = some (.key .confirm) ∧
      last.state.game.session.isFinished = false ∧
      ∃ branch taken, last.state.game.session.dialogue.activeBranch = .ok branch ∧
        last.state.panel.isTyping = false ∧ last.state.panel.visible = branch.message.toList ∧
        last.state.panel.ended = false ∧ last.state.panel.header = branch.header ∧
        last.state.panel.message = branch.message ∧
        last.state.panel.choices = branch.responses.map Response.text ∧
        last.state.game.cursor.confirmed? .confirm = some last.state.panel.selected ∧
        last.state.game.session.choose last.state.panel.selected = .ok taken ∧
        respond ferrySetup last.state (.press ⟨.enter, false⟩) = Step.andThen
          ⟨⟨{ last.state.game with session := taken.session },
              last.state.panel.beginTurn.report (Game.statusOf taken.external)⟩,
            [last.state.panel.beginTurn.report (Game.statusOf taken.external)], taken.overwrites, none⟩
          beginTurn := by
  intro last
  have going : last.ending = none := by rfl
  have handed : last.state.handed? (.press ⟨.enter, false⟩) = some (.key .confirm) := by decide
  have unfinished : last.state.game.session.isFinished = false := by rfl
  obtain ⟨_, _, _, confirms⟩ := confirmed_as_shown ferrySetup ferryGame boarding going
  exact ⟨going, handed, unfinished, confirms _ handed unfinished⟩

end Parley.ScreenPlay
