import Parley.Proofs.Player.FullScreen

namespace Parley

/-- Games that nobody can tell apart without looking at the disk. -/
structure Game.Alike (left right : Game) : Prop where
  session : left.session = right.session
  cursor : left.cursor = right.cursor

/-- Replies that differ in nothing but the status. -/
inductive Reply.Alike : Reply → Reply → Prop
  | pointed : Alike .pointed .pointed
  | vain : Alike .vain .vain
  | finished (status other : String) (overwrites : List Overwrite) :
      Alike (.finished status overwrites) (.finished other overwrites)
  | left : Alike .left .left

/-- What comes of one input in two games: the same failure, or replies and games that are alike. -/
inductive Game.AnswersAlike : Except Failure (Reply × Game) → Except Failure (Reply × Game) → Prop
  | failed (failure : Failure) : AnswersAlike (.error failure) (.error failure)
  | answered {next further : Game} (replies : reply.Alike other) (games : next.Alike further) :
      AnswersAlike (.ok (reply, next)) (.ok (other, further))

namespace Game

variable {left right : Game} {input : Input}

theorem Alike.refl (game : Game) : game.Alike game := ⟨rfl, rfl⟩

/-- Only loading looks at the disk. What saving does to it may differ. -/
theorem respond_alike (setup : Setup) (alike : left.Alike right) (other : input ≠ .action .load) :
    AnswersAlike (left.respond setup input) (right.respond setup input) := by
  cases input with
  | key key =>
    rw [respond, respond, press, press, alike.session, alike.cursor]
    split
    · exact .answered .vain alike
    · cases confirmed : right.cursor.confirmed? key with
      | none => exact .answered .pointed ⟨rfl, rfl⟩
      | some index =>
        dsimp only
        cases right.session.choose index with
        | error failure => exact .failed failure
        | ok taken => exact .answered (.finished _ _ _) ⟨rfl, rfl⟩
  | action action =>
    cases action with
    | load => exact absurd rfl other
    | help => exact .answered .pointed alike
    | quit => exact .answered .left alike
    | save =>
      rw [respond, respond, save, save]
      dsimp only
      cases ((setup.saved left.session).save left.disk setup.saveFile).2 <;>
        cases ((setup.saved right.session).save right.disk setup.saveFile).2 <;>
        exact .answered (.finished _ _ _) ⟨alike.session, alike.cursor⟩
    | restart =>
      rw [respond, respond, restart, restart]
      cases Session.ofSource setup.options setup.script.text with
      | error failure => exact .answered (.finished _ _ _) alike
      | ok session => exact .answered (.finished _ _ _) ⟨rfl, alike.cursor⟩

theorem turn_alike (alike : left.Alike right) : Step.Agrees Alike left.turn right.turn := by
  unfold turn
  match reached : right.session.phase with
  | .error failure =>
    rw [beginTurn_of_error reached, beginTurn_of_error (alike.session ▸ reached)]
    exact ⟨alike, rfl, rfl⟩
  | .ok .over =>
    rw [beginTurn_of_over reached, beginTurn_of_over (alike.session ▸ reached)]
    exact ⟨alike, rfl, rfl⟩
  | .ok (.choosing branch) =>
    rw [beginTurn_of_choosing reached, beginTurn_of_choosing (alike.session ▸ reached)]
    exact ⟨⟨alike.session, rfl⟩, rfl, rfl⟩

theorem step_alike (setup : Setup) (alike : left.Alike right) (other : input ≠ .action .load) :
    Step.Agrees Alike (left.step setup input) (right.step setup input) := by
  have answers := respond_alike setup alike other
  unfold step
  generalize left.respond setup input = first, right.respond setup input = second at answers
  cases answers with
  | failed failure => exact ⟨alike, rfl, rfl⟩
  | answered replies games =>
    cases replies with
    | pointed | vain | left => exact ⟨games, rfl, rfl⟩
    | finished status other overwrites =>
      have agrees := turn_alike games
      exact ⟨agrees.state, congrArg (overwrites ++ ·) agrees.overwrites, agrees.ending⟩

theorem choice?_alike (alike : left.Alike right) (input : Input) :
    left.choice? input = right.choice? input := by
  cases input with
  | action action => rfl
  | key key => rw [choice?, choice?, alike.session, alike.cursor]

end Game

namespace ScreenPlay

/-- Screens that nobody can tell apart without looking at the status or the disk. -/
structure Alike (left right : ScreenPlay) : Prop where
  game : left.game.Alike right.game
  panel : left.panel.quiet = right.panel.quiet

variable {left right : ScreenPlay} {input : Input} {event : Event}

theorem Alike.refl (play : ScreenPlay) : play.Alike play := ⟨.refl play.game, rfl⟩

theorem Alike.trans {first second third : ScreenPlay} (early : first.Alike second)
    (late : second.Alike third) : first.Alike third :=
  ⟨⟨early.game.session.trans late.game.session, early.game.cursor.trans late.game.cursor⟩,
    early.panel.trans late.panel⟩

theorem Alike.isTyping (alike : left.Alike right) : left.panel.isTyping = right.panel.isTyping := by
  rw [← left.panel.isTyping_quiet, alike.panel, Panel.isTyping_quiet]

theorem handed?_alike (alike : left.Alike right) (event : Event) :
    left.handed? event = right.handed? event := by
  cases event with
  | press key => rw [handed?, handed?, alike.isTyping]
  | tick | lull | notice => rfl

theorem draw_alike (alike : left.Alike right) : Step.Agrees Alike (draw left) (draw right) :=
  ⟨alike, rfl, rfl⟩

theorem beginTurn_alike (alike : left.Alike right) :
    Step.Agrees Alike (beginTurn left) (beginTurn right) := by
  unfold beginTurn
  match reached : right.game.session.phase with
  | .error failure =>
    rw [Game.beginTurn_of_error reached, Game.beginTurn_of_error (alike.game.session ▸ reached)]
    exact ⟨alike, rfl, rfl⟩
  | .ok .over =>
    rw [Game.beginTurn_of_over reached, Game.beginTurn_of_over (alike.game.session ▸ reached)]
    refine draw_alike ⟨alike.game, ?_⟩
    rw [Panel.quiet_markEnded, alike.panel, Panel.quiet_markEnded]
  | .ok (.choosing branch) =>
    rw [Game.beginTurn_of_choosing reached,
      Game.beginTurn_of_choosing (alike.game.session ▸ reached)]
    refine draw_alike ⟨⟨alike.game.session, rfl⟩, ?_⟩
    rw [Panel.quiet_showBranch, alike.panel, Panel.quiet_showBranch]

theorem quiet_reporting {panel shown : Panel} (alike : panel.quiet = shown.quiet) (input : Input)
    (status other : String) :
    (reporting panel input status).quiet = (reporting shown input other).quiet := by
  rw [reporting, reporting, Panel.quiet_report, Panel.quiet_report]
  split
  · rw [Panel.quiet_beginTurn, alike, Panel.quiet_beginTurn]
  · exact alike

theorem receive_alike (setup : Setup) (alike : left.Alike right) (other : input ≠ .action .load) :
    Step.Agrees Alike (receive setup left input) (receive setup right input) := by
  have answers := Game.respond_alike setup alike.game other
  unfold receive
  generalize left.game.respond setup input = first, right.game.respond setup input = second at answers
  cases answers with
  | failed failure => exact ⟨alike, rfl, rfl⟩
  | @answered reply answer next further replies games =>
    cases replies with
    | left => exact ⟨⟨games, alike.panel⟩, rfl, rfl⟩
    | vain => exact draw_alike ⟨games, alike.panel⟩
    | pointed =>
      dsimp only
      rw [games.session, games.cursor]
      split
      · refine draw_alike ⟨games, ?_⟩
        rw [Panel.quiet_showBranch, alike.panel, Panel.quiet_showBranch]
      · exact draw_alike ⟨games, alike.panel⟩
    | finished status other overwrites =>
      have reported : ScreenPlay.Alike ⟨next, reporting left.panel input status⟩
          ⟨further, reporting right.panel input other⟩ :=
        ⟨games, quiet_reporting alike.panel input status other⟩
      have agrees := beginTurn_alike reported
      exact ⟨agrees.state, congrArg (overwrites ++ ·) agrees.overwrites, agrees.ending⟩

theorem tick_alike (alike : left.Alike right) : Step.Agrees Alike (tick left) (tick right) := by
  refine draw_alike ⟨alike.game, ?_⟩
  rw [Panel.quiet_tick, alike.panel, Panel.quiet_tick]

theorem ticks_alike (count : Nat) (alike : left.Alike right) :
    Step.Agrees Alike (ticks count left) (ticks count right) := by
  induction count generalizing left right with
  | zero => exact ⟨alike, rfl, rfl⟩
  | succ count ih => exact (tick_alike alike).andThen (ih (tick_alike alike).state)

theorem press_alike (setup : Setup) (alike : left.Alike right) (other : input ≠ .action .load) :
    Step.Agrees Alike (press setup left input) (press setup right input) := by
  have received := receive_alike setup alike other
  cases input with
  | key key =>
    cases key with
    | other => exact received
    | confirm =>
      rw [press, press, alike.isTyping]
      split
      · refine draw_alike ⟨alike.game, ?_⟩
        rw [Panel.quiet_finishTyping, alike.panel, Panel.quiet_finishTyping]
      · exact received
    | up | down =>
      rw [press, press, alike.isTyping]
      split
      · exact draw_alike ⟨alike.game, alike.panel⟩
      · exact received
  | action action =>
    cases action with
    | help =>
      refine draw_alike ⟨alike.game, ?_⟩
      rw [Panel.quiet_toggleHelp, alike.panel, Panel.quiet_toggleHelp]
    | save | load | restart | quit => exact received

theorem respond_alike (setup : Setup) (alike : left.Alike right)
    (other : left.handed? event ≠ some (.action .load)) :
    Step.Agrees Alike (respond setup left event) (respond setup right event) := by
  cases event with
  | press key =>
    apply press_alike setup alike
    intro load
    simp [handed?, load, Input.steers] at other
  | tick => exact tick_alike alike
  | lull =>
    have same : left.panel.message.length - left.panel.typed
        = right.panel.message.length - right.panel.typed :=
      congrArg (fun panel => panel.message.length - panel.typed) alike.panel
    rw [respond, respond, same]
    exact ticks_alike _ alike
  | notice => exact draw_alike alike

end ScreenPlay

end Parley
