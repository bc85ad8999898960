import Parley.Proofs.Player.Alike
import Parley.Proofs.Player.LineMode
import Parley.Proofs.Player.Showing

/-! What saving does to the game that is played. It begins the turn again, so it puts the cursor back to the
first response, and does nothing else. -/

namespace Parley

namespace Game

variable {setup : Setup} {game : Game}

theorem respond_save (setup : Setup) (game : Game) : ∃ status disk,
    game.respond setup (.action .save) = .ok (.finished status [], { game with disk }) := by
  rw [respond, save]
  obtain ⟨disk, result⟩ := (setup.saved game.session).save game.disk setup.saveFile
  cases result with
  | error failure => exact ⟨_, _, rfl⟩
  | ok written => exact ⟨_, _, rfl⟩

theorem respond_up (unfinished : game.session.isFinished = false) :
    game.respond setup (.key .up) = .ok (.pointed, { game with cursor := game.cursor.press .up }) := by
  rw [respond, press, unfinished]
  rfl

theorem respond_vain (finished : game.session.isFinished = true) (key : Key) :
    game.respond setup (.key key) = .ok (.vain, game) := by
  rw [respond, press, finished]
  rfl

theorem choice?_up (game : Game) : game.choice? (.key .up) = none := by
  rw [choice?]
  split <;> rfl

/-- Keys change nothing once the dialogue is over. -/
theorem run_up_over (finished : game.session.isFinished = true) (count : Nat) :
    Step.run (step setup) game (List.replicate count (.key .up)) = .stay game [] := by
  induction count with
  | zero => rfl
  | succ count ih =>
    rw [List.replicate_succ, Step.run, step, respond_vain finished]
    exact ih

theorem run_up_choosing (unfinished : game.session.isFinished = false) :
    Step.run (step setup) game (List.replicate game.cursor.index (.key .up))
      = .stay { game with cursor := ⟨0, game.cursor.count⟩ } [] := by
  induction above : game.cursor.index generalizing game with
  | zero =>
    have same : game.cursor = ⟨0, game.cursor.count⟩ := by rw [← above]
    rw [← same]
    rfl
  | succ index ih =>
    rw [List.replicate_succ, Step.run, step, respond_up unfinished]
    refine ih unfinished ?_
    rw [Cursor.press, above]
    rfl

/-- Saving comes to the same as moving to the first response. -/
theorem step_save (setup : Setup) (waits : game.Waits phase) :
    Step.Agrees Alike (game.step setup (.action .save))
      (Step.run (step setup) game (List.replicate game.cursor.index (.key .up))) := by
  obtain ⟨status, disk, saved⟩ := respond_save setup game
  rw [step, saved]
  dsimp only
  rw [Step.andThen_of_going rfl]
  cases waits with
  | ended reached =>
    have began : { game with disk }.beginTurn = .ok (.over, { game with disk }) :=
      beginTurn_of_over reached
    rw [run_up_over (Session.phase_eq_over_iff.mp reached), turn, began]
    exact ⟨⟨rfl, rfl⟩, rfl, rfl⟩
  | @choosing branch reached count within =>
    have began : { game with disk }.beginTurn
        = .ok (.choosing branch, { game with disk, cursor := .start branch.responses.length }) :=
      beginTurn_of_choosing reached
    rw [run_up_choosing (Session.phase_eq_choosing_iff.mp reached).1, count, turn, began]
    exact ⟨⟨rfl, rfl⟩, rfl, rfl⟩

/-- What comes of a run with a save in it comes of the run that moves to the first response instead, and
the same choices are made on the way, unless a game is loaded later on. -/
theorem run_saved (setup : Setup) (game : Game) (before after : List Input)
    (unloaded : ∀ moment ∈ Step.moments (step setup) (game.run setup (before ++ [.action .save])) after,
      moment.2 ≠ .action .load) :
    let ups := List.replicate (game.run setup before).state.cursor.index (.key .up)
    Step.Agrees Alike (game.run setup (before ++ [.action .save] ++ after))
        (game.run setup (before ++ ups ++ after)) ∧
      choices (game.exchanges setup (before ++ [.action .save] ++ after))
        = choices (game.exchanges setup (before ++ ups ++ after)) := by
  apply Step.Agrees.followedBy_replaced Alike.refl
  · intro one other input alike
    exact choice?_alike alike input
  · intro going
    obtain ⟨phase, waits⟩ := run_waits going
    refine ⟨?_, ?_⟩
    · refine Step.Agrees.andThen ⟨.refl _, rfl, rfl⟩ ?_
      rw [Step.run_singleton]
      exact step_save setup waits
    · rw [Step.seen_of_unseen, Step.seen_of_unseen]
      · intro game input pressed
        rw [List.eq_of_mem_replicate pressed]
        exact choice?_up game
      · intro game input saved
        rw [List.mem_singleton.mp saved]
        rfl
  · intro moment looked other alike
    exact step_alike setup alike (unloaded moment looked)

end Game

namespace LinePlay

theorem run_saved (setup : Setup) (game : Game) (before after : List String)
    (saves : Input.ofLine save = .action .save)
    (unloaded : ∀ moment ∈ Step.moments (read setup) (run setup game (before ++ [save])) after,
      Input.ofLine moment.2 ≠ .action .load) :
    let ups := List.replicate (run setup game before).state.game.cursor.index "k"
    Step.Agrees (fun saved moved => saved.game.Alike moved.game)
        (run setup game (before ++ [save] ++ after)) (run setup game (before ++ ups ++ after)) ∧
      Game.choices (exchanges setup game (before ++ [save] ++ after))
        = Game.choices (exchanges setup game (before ++ ups ++ after)) := by
  intro ups
  have up : Input.ofLine "k" = .key .up := by rfl
  have said : (before ++ [save] ++ after).map Input.ofLine
      = before.map Input.ofLine ++ [.action .save] ++ after.map Input.ofLine := by
    simp [saves]
  have said_up : (before ++ ups ++ after).map Input.ofLine
      = before.map Input.ofLine
        ++ List.replicate (game.run setup (before.map Input.ofLine)).state.cursor.index (.key .up)
        ++ after.map Input.ofLine := by
    rw [← (run_agrees setup game before).1.state]
    simp [ups, up]
  have heard : ∀ moment ∈ Step.moments (Game.step setup)
      (game.run setup (before.map Input.ofLine ++ [.action .save])) (after.map Input.ofLine),
      moment.2 ≠ .action .load := by
    have spoken := (run_agrees setup game (before ++ [save])).1
    rw [List.map_append, List.map_singleton, saves] at spoken
    rw [← (followedBy_agrees setup spoken after).2, List.forall_mem_map]
    exact unloaded
  obtain ⟨spoken, exchanged⟩ := run_agrees setup game (before ++ [save] ++ after)
  obtain ⟨spoken_up, exchanged_up⟩ := run_agrees setup game (before ++ ups ++ after)
  obtain ⟨agrees, chosen⟩ :=
    Game.run_saved setup game (before.map Input.ofLine) (after.map Input.ofLine) heard
  rw [said] at spoken exchanged
  rw [said_up] at spoken_up exchanged_up
  refine ⟨⟨?_, ?_, ?_⟩, ?_⟩
  · rw [spoken.state, spoken_up.state]
    exact agrees.state
  · exact spoken.overwrites.trans (agrees.overwrites.trans spoken_up.overwrites.symm)
  · exact spoken.ending.trans (agrees.ending.trans spoken_up.ending.symm)
  · rw [exchanged, exchanged_up]
    exact chosen

end LinePlay

namespace ScreenPlay

variable {setup : Setup} {play : ScreenPlay}

def upward : Event := .press ⟨.up, false⟩

theorem handed?_upward (typed : play.panel.isTyping = false) :
    play.handed? upward = some (.key .up) := by
  rw [upward, handed?, typed]
  rfl

theorem choice?_upward (play : ScreenPlay) : (play.handed? upward).bind play.game.choice? = none := by
  cases typing : play.panel.isTyping with
  | true =>
    rw [upward, handed?, typing]
    rfl
  | false =>
    rw [handed?_upward typing]
    exact play.game.choice?_up

theorem handed?_of_save {key : KeyPress} (saves : Input.ofPress key = .action .save)
    (play : ScreenPlay) : play.handed? (.press key) = some (.action .save) := by
  rw [handed?, saves]
  simp [Input.steers]

/-- Once the dialogue is over, keys do no more than say so. -/
theorem run_upward_over (setup : Setup) (finished : play.game.session.isFinished = true)
    (clears : play.panel.Clears) (count : Nat) :
    Step.Agrees Alike (.stay play [] : Step ScreenPlay Panel)
      (Step.run (respond setup) play (List.replicate count upward)) := by
  induction count generalizing play with
  | zero => exact ⟨.refl play, rfl, rfl⟩
  | succ count ih =>
    have pressed := respond_of_handed setup (handed?_upward clears.typed)
    rw [receive_of_vain (Game.respond_vain finished .up)] at pressed
    generalize "dialogue ended: r restart | l load | q quit" = status at pressed
    have same : play.Alike ⟨play.game, { play.panel with status }⟩ := ⟨.refl play.game, rfl⟩
    have later := @ih ⟨play.game, { play.panel with status }⟩ finished
      ((play.panel.status_redraws status).clears clears)
    have state := same.trans later.state
    rw [List.replicate_succ, Step.run, pressed]
    exact ⟨state, later.overwrites, later.ending⟩

/-- Moving to the first response leaves the panel as showing the branch there does. -/
theorem run_upward_choosing (setup : Setup) (waits : play.game.Waits (.choosing branch))
    (lays : play.panel.Lays branch play.game.cursor.index) :
    Step.Agrees Alike
      (.stay ⟨{ play.game with cursor := ⟨0, play.game.cursor.count⟩ }, play.panel.showBranch branch 0⟩ [] :
        Step ScreenPlay Panel)
      (Step.run (respond setup) play (List.replicate play.game.cursor.index upward)) := by
  induction above : play.game.cursor.index generalizing play with
  | zero =>
    rw [above] at lays
    have same : play.game.cursor = ⟨0, play.game.cursor.count⟩ := by rw [← above]
    rw [lays.showBranch_self, ← same]
    exact ⟨.refl play, rfl, rfl⟩
  | succ index ih =>
    have typed : play.panel.isTyping = false := by
      cases typing : play.panel.isTyping with
      | false => rfl
      | true => simp [lays.unmoved typing] at above
    have unmoved : play.panel.isTyping = true → index = 0 := by simp [typed]
    have unfinished := (Session.phase_eq_choosing_iff.mp waits.phase_eq).1
    have moved : (play.game.cursor.press .up).index = index := by
      rw [Cursor.press, above]
      rfl
    have within := waits.within
    rw [above] at within
    have within := Nat.lt_of_succ_lt within
    have laid := lays.showBranch within unmoved
    have pressed := respond_of_handed setup (handed?_upward typed)
    rw [receive_of_pointed (Game.respond_up unfinished) waits.phase_eq] at pressed
    dsimp only at pressed
    rw [moved] at pressed
    have later := @ih
      ⟨{ play.game with cursor := play.game.cursor.press .up }, play.panel.showBranch branch index⟩
      (waits.press .up) (moved ▸ laid) moved
    rw [lays.showBranch_twice within unmoved] at later
    rw [List.replicate_succ, Step.run, pressed]
    exact ⟨later.state, later.overwrites, later.ending⟩

/-- Saving comes to the same as moving to the first response, but for the status. -/
theorem respond_save {key : KeyPress} (setup : Setup) (saves : Input.ofPress key = .action .save)
    (inStep : play.InStep) :
    Step.Agrees Alike (respond setup play (.press key))
      (Step.run (respond setup) play (List.replicate play.game.cursor.index upward)) := by
  obtain ⟨status, disk, saved⟩ := Game.respond_save setup play.game
  rw [respond_of_handed setup (handed?_of_save saves play), receive_of_finished saved,
    Step.andThen_of_going rfl, beginTurn]
  cases inStep with
  | ended waits clears =>
    have began : { play.game with disk }.beginTurn = .ok (.over, { play.game with disk }) :=
      Game.beginTurn_of_over waits.phase_eq
    have upward := run_upward_over setup (Session.phase_eq_over_iff.mp waits.phase_eq) clears
      play.game.cursor.index
    have same : ScreenPlay.Alike ⟨{ play.game with disk }, (play.panel.report status).markEnded⟩ play := by
      refine ⟨⟨rfl, rfl⟩, ?_⟩
      rw [Panel.quiet_markEnded, Panel.quiet_report, ← Panel.quiet_markEnded, clears]
    have state := same.trans upward.state
    dsimp only
    rw [began]
    exact ⟨state, upward.overwrites, upward.ending⟩
  | @choosing branch waits lays =>
    have began : { play.game with disk }.beginTurn = .ok (.choosing branch,
        { play.game with disk, cursor := .start branch.responses.length }) :=
      Game.beginTurn_of_choosing waits.phase_eq
    have upward := run_upward_choosing setup waits lays
    have same : ScreenPlay.Alike
        ⟨{ play.game with disk, cursor := .start branch.responses.length },
          (play.panel.report status).showBranch branch 0⟩
        ⟨{ play.game with cursor := ⟨0, play.game.cursor.count⟩ }, play.panel.showBranch branch 0⟩ := by
      refine ⟨⟨rfl, ?_⟩, ?_⟩
      · rw [waits.count_eq]
        rfl
      · rw [Panel.quiet_showBranch, Panel.quiet_report, Panel.quiet_showBranch]
    have state := same.trans upward.state
    dsimp only
    rw [began]
    exact ⟨state, upward.overwrites, upward.ending⟩

theorem choices_exchanges (setup : Setup) (game : Game) (events : List Event) :
    Game.choices (exchanges setup game events)
      = Step.seen (fun play event => (play.handed? event).bind play.game.choice?) (respond setup) (start game)
          events := by
  rw [Game.choices, exchanges, Step.seen, Step.seen, List.filterMap_filterMap]
  congr 1
  funext moment
  rw [Option.bind_map]
  rfl

theorem run_saved {save : KeyPress} (setup : Setup) (game : Game) (before after : List Event)
    (saves : Input.ofPress save = .action .save)
    (unloaded : ∀ moment ∈ Step.moments (respond setup) (run setup game (before ++ [.press save])) after,
      moment.1.handed? moment.2 ≠ some (.action .load)) :
    let ups := List.replicate (run setup game before).state.game.cursor.index upward
    Step.Agrees Alike (run setup game (before ++ [.press save] ++ after))
        (run setup game (before ++ ups ++ after)) ∧
      Game.choices (exchanges setup game (before ++ [.press save] ++ after))
        = Game.choices (exchanges setup game (before ++ ups ++ after)) := by
  intro ups
  rw [choices_exchanges, choices_exchanges]
  apply Step.Agrees.followedBy_replaced Alike.refl
  · intro one other event alike
    rw [handed?_alike alike]
    congr 1
    funext input
    exact Game.choice?_alike alike.game input
  · intro going
    refine ⟨?_, ?_⟩
    · refine Step.Agrees.andThen ⟨.refl _, rfl, rfl⟩ ?_
      rw [Step.run_singleton]
      exact respond_save setup saves (run_inStep going)
    · rw [Step.seen_of_unseen, Step.seen_of_unseen]
      · intro play event pressed
        rw [List.eq_of_mem_replicate pressed]
        exact choice?_upward play
      · intro play event pressed
        rw [List.mem_singleton.mp pressed, handed?_of_save saves]
        rfl
  · intro moment looked other alike
    exact respond_alike setup alike (unloaded moment looked)

end ScreenPlay

/-- Saving is moving to the first response. In both modes a run with a save in it, whether that succeeds or
fails, goes the way of the run that moves the cursor up to the first response instead: the same choices are
made, with the same outcome, and both end alike in the same session, unless a game is loaded after the save.
On the screen the panel is the same too, but for the status. Where the cursor is at the first response
already, the save can be left out. -/
theorem saved_as_moved (setup : Setup) (game : Game) :
    (∀ before save after, Input.ofLine save = .action .save →
      (∀ moment ∈ Step.moments (LinePlay.read setup) (LinePlay.run setup game (before ++ [save])) after,
        Input.ofLine moment.2 ≠ .action .load) →
      let ups := List.replicate (LinePlay.run setup game before).state.game.cursor.index "k"
      Step.Agrees (fun saved moved => saved.game.Alike moved.game)
          (LinePlay.run setup game (before ++ [save] ++ after))
          (LinePlay.run setup game (before ++ ups ++ after)) ∧
        Game.choices (LinePlay.exchanges setup game (before ++ [save] ++ after))
          = Game.choices (LinePlay.exchanges setup game (before ++ ups ++ after))) ∧
    ∀ before save after, Input.ofPress save = .action .save →
      (∀ moment ∈ Step.moments (ScreenPlay.respond setup)
          (ScreenPlay.run setup game (before ++ [.press save])) after,
        moment.1.handed? moment.2 ≠ some (.action .load)) →
      let ups := List.replicate (ScreenPlay.run setup game before).state.game.cursor.index
        (Event.press ⟨.up, false⟩)
      Step.Agrees ScreenPlay.Alike (ScreenPlay.run setup game (before ++ [.press save] ++ after))
          (ScreenPlay.run setup game (before ++ ups ++ after)) ∧
        Game.choices (ScreenPlay.exchanges setup game (before ++ [.press save] ++ after))
          = Game.choices (ScreenPlay.exchanges setup game (before ++ ups ++ after)) :=
  ⟨fun before _ after => LinePlay.run_saved setup game before after,
    fun before _ after => ScreenPlay.run_saved setup game before after⟩

theorem saved_as_moved_on_ferry :
    let moving : List Event := [.lull, .press ⟨.down, false⟩]
    let save : KeyPress := ⟨.char 's', false⟩
    let confirming : List Event := [.press ⟨.enter, false⟩]
    Input.ofLine ":save" = .action .save ∧
    (∀ moment ∈ Step.moments (LinePlay.read ferrySetup)
        (LinePlay.run ferrySetup ferryGame (["j"] ++ [":save"])) [""],
      Input.ofLine moment.2 ≠ .action .load) ∧
    Game.choices (LinePlay.exchanges ferrySetup ferryGame (["j"] ++ [":save"] ++ [""]))
      = Game.choices (LinePlay.exchanges ferrySetup ferryGame (["j"] ++ ["k"] ++ [""])) ∧
    Input.ofPress save = .action .save ∧
    (∀ moment ∈ Step.moments (ScreenPlay.respond ferrySetup)
        (ScreenPlay.run ferrySetup ferryGame (moving ++ [.press save])) confirming,
      moment.1.handed? moment.2 ≠ some (.action .load)) ∧
    Game.choices (ScreenPlay.exchanges ferrySetup ferryGame (moving ++ [.press save] ++ confirming))
      = Game.choices (ScreenPlay.exchanges ferrySetup ferryGame
          (moving ++ [.press ⟨.up, false⟩] ++ confirming)) := by
  intro moving save confirming
  have lines : ∀ moment ∈ Step.moments (LinePlay.read ferrySetup)
      (LinePlay.run ferrySetup ferryGame (["j"] ++ [":save"])) [""],
      Input.ofLine moment.2 ≠ .action .load := by
    decide +kernel
  have events : ∀ moment ∈ Step.moments (ScreenPlay.respond ferrySetup)
      (ScreenPlay.run ferrySetup ferryGame (moving ++ [.press save])) confirming,
      moment.1.handed? moment.2 ≠ some (.action .load) := by
    decide +kernel
  obtain ⟨line, screen⟩ := saved_as_moved ferrySetup ferryGame
  exact ⟨rfl, lines, (line ["j"] ":save" [""] rfl lines).2, rfl, events,
    (screen moving save confirming rfl events).2⟩

/-- A save between a move and a confirmation changes which response is chosen, in both modes. -/
theorem saving_changes_choice :
    let line lines := (Game.choices (LinePlay.exchanges ferrySetup ferryGame lines)).map Prod.fst
    let screen events := (Game.choices (ScreenPlay.exchanges ferrySetup ferryGame events)).map Prod.fst
    line ["j", ":save", ""] = [0] ∧ line ["j", ""] = [1] ∧
      screen [.lull, .press ⟨.down, false⟩, .press ⟨.char 's', false⟩, .press ⟨.enter, false⟩] = [0] ∧
      screen [.lull, .press ⟨.down, false⟩, .press ⟨.enter, false⟩] = [1] := by
  decide +kernel

end Parley
