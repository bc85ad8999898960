import Parley.Player.Game
import Parley.Proofs.Play.Safety
import Parley.Proofs.Player.Run

/-! The game that both players play, as a machine of its own that takes one input at a time. Where it waits
for an input its cursor stands at a response of the active branch, so a confirmed choice is one that the
branch has. -/

namespace Parley

namespace Session

variable {session : Session}

theorem phase_of_active {branch : Branch} (going : session.isFinished = false)
    (active : session.dialogue.activeBranch = .ok branch) :
    session.phase = if branch.responses = [] then .error ⟨.play (.speechless branch.header), none⟩
      else .ok (.choosing branch) := by
  rw [phase, going, active]
  by_cases silent : branch.responses = [] <;> simp [silent]

theorem phase_eq_over_iff : session.phase = .ok .over ↔ session.isFinished = true := by
  cases finished : session.isFinished with
  | true => simp [phase, finished]
  | false =>
    cases active : session.dialogue.activeBranch with
    | error failure => simp [phase, finished, active]
    | ok branch =>
      rw [phase_of_active finished active]
      split <;> simp

theorem phase_eq_choosing_iff {branch : Branch} :
    session.phase = .ok (.choosing branch) ↔ session.isFinished = false ∧
      session.dialogue.activeBranch = .ok branch ∧ branch.responses ≠ [] := by
  cases finished : session.isFinished with
  | true => simp [phase, finished]
  | false =>
    cases active : session.dialogue.activeBranch with
    | error failure => simp [phase, finished, active]
    | ok other =>
      rw [phase_of_active finished active]
      split
      · rename_i silent
        simp only [reduceCtorEq, Except.ok.injEq, true_and, false_iff, not_and]
        rintro rfl
        exact not_not_intro silent
      · rename_i spoken
        simp only [Except.ok.injEq, Phase.choosing.injEq, true_and, iff_self_and]
        rintro rfl
        exact spoken

end Session

theorem Cursor.index_of_confirmed? {cursor : Cursor} (confirmed : cursor.confirmed? key = some choice) :
    choice = cursor.index := by
  unfold confirmed? at confirmed
  cases key with
  | up | down | other => cases confirmed
  | confirm =>
    dsimp only at confirmed
    split at confirmed
    · exact (Option.some.inj confirmed).symm
    · cases confirmed

namespace Game

variable {setup : Setup} {game : Game}

theorem beginTurn_of_over (phase : game.session.phase = .ok .over) :
    game.beginTurn = .ok (.over, game) := by
  rw [beginTurn, phase]
  rfl

theorem beginTurn_of_choosing (phase : game.session.phase = .ok (.choosing branch)) :
    game.beginTurn
      = .ok (.choosing branch, { game with cursor := .start branch.responses.length }) := by
  rw [beginTurn, phase]
  rfl

theorem beginTurn_of_error {failure : Failure} (phase : game.session.phase = .error failure) :
    game.beginTurn = .error failure := by
  rw [beginTurn, phase]
  rfl

/-- The next turn of the game as a machine of its own, which shows nothing. -/
def turn (game : Game) : Step Game Empty :=
  match game.beginTurn with
  | .error failure => ⟨game, [], [], some (.failed failure)⟩
  | .ok (_, game) => .stay game []

/-- What both players do on an input. -/
def step (setup : Setup) (game : Game) (input : Input) : Step Game Empty :=
  match game.respond setup input with
  | .error failure => ⟨game, [], [], some (.failed failure)⟩
  | .ok (.left, game) => ⟨game, [], [], some .left⟩
  | .ok (.vain, game) | .ok (.pointed, game) => .stay game []
  | .ok (.finished _ overwrites, game) => Step.andThen ⟨game, [], overwrites, none⟩ turn

def run (setup : Setup) (game : Game) (inputs : List Input) : Step Game Empty :=
  game.turn.followedBy (step setup) inputs

def exchanges (setup : Setup) (game : Game) (inputs : List Input) : List (Game × Input) :=
  Step.moments (step setup) game.turn inputs

/-- The choice that an input makes: the index of the response, and what comes of it. -/
def choice? (game : Game) : Input → Option (Nat × Except Failure Taken)
  | .key key =>
    if game.session.isFinished then none
    else (game.cursor.confirmed? key).map fun index => (index, game.session.choose index)
  | .action _ => none

def choices (exchanges : List (Game × Input)) : List (Nat × Except Failure Taken) :=
  exchanges.filterMap fun exchange => exchange.1.choice? exchange.2

/-- The status that an input is answered with, if it finishes a turn. -/
def status? (setup : Setup) (game : Game) (input : Input) : Option String :=
  match game.respond setup input with
  | .ok (.finished status _, _) => some status
  | _ => none

theorem respond_of_confirmed (setup : Setup) (going : game.session.isFinished = false)
    (confirmed : game.cursor.confirmed? key = some index)
    (took : game.session.choose index = .ok taken) :
    game.respond setup (.key key) = .ok (.finished (statusOf taken.external) taken.overwrites,
      { game with session := taken.session }) := by
  rw [respond, press, going, confirmed]
  simp [took]

/-- Everything that an input can do to a game before the next turn begins. Only a choice that the session
refuses is no answer. -/
inductive Answered (setup : Setup) (game : Game) : Input → Reply → Game → Prop
  | vain (finished : game.session.isFinished = true) : Answered setup game (.key key) .vain game
  | moved (going : game.session.isFinished = false) (other : game.cursor.confirmed? key = none) :
      Answered setup game (.key key) .pointed { game with cursor := game.cursor.press key }
  | chose (going : game.session.isFinished = false)
      (confirmed : game.cursor.confirmed? key = some index)
      (took : game.session.choose index = .ok taken) :
      Answered setup game (.key key) (.finished (statusOf taken.external) taken.overwrites)
        { game with session := taken.session }
  | saved (disk : Disk) (status : String) :
      Answered setup game (.action .save) (.finished status []) { game with disk }
  | loaded {session : Session} (status : String)
      (resumed : (SavedGame.load game.disk setup.saveFile >>= setup.resume) = .ok session) :
      Answered setup game (.action .load) (.finished status []) { game with session }
  | restarted {session : Session} (status : String)
      (opened : Session.ofSource setup.options setup.script.text = .ok session) :
      Answered setup game (.action .restart) (.finished status []) { game with session }
  | unchanged (status : String) (request : action = .load ∨ action = .restart) :
      Answered setup game (.action action) (.finished status []) game
  | helped : Answered setup game (.action .help) .pointed game
  | left : Answered setup game (.action .quit) .left game

theorem answered_of_respond (responded : game.respond setup input = .ok (reply, next)) :
    Answered setup game input reply next := by
  cases input with
  | key key =>
    rw [respond, press] at responded
    cases finished : game.session.isFinished with
    | true =>
      rw [finished] at responded
      cases responded
      exact .vain finished
    | false =>
      rw [finished] at responded
      cases confirmed : game.cursor.confirmed? key with
      | none =>
        rw [confirmed] at responded
        cases responded
        exact .moved finished confirmed
      | some index =>
        rw [confirmed] at responded
        obtain ⟨taken, took, responded⟩ := bind_ok responded
        cases responded
        exact .chose finished confirmed took
  | action action =>
    cases action with
    | save =>
      rw [respond, save] at responded
      cases stored : ((setup.saved game.session).save game.disk setup.saveFile).2 <;>
        simp only [stored, Except.map, report, Except.ok.injEq, Prod.mk.injEq] at responded <;>
        obtain ⟨rfl, rfl⟩ := responded <;> exact .saved _ _
    | load =>
      rw [respond, load] at responded
      cases resumed : SavedGame.load game.disk setup.saveFile >>= setup.resume with
      | error failure =>
        rw [resumed] at responded
        cases responded
        exact .unchanged _ (.inl rfl)
      | ok session =>
        rw [resumed] at responded
        cases responded
        exact .loaded _ resumed
    | restart =>
      rw [respond, restart] at responded
      cases opened : Session.ofSource setup.options setup.script.text with
      | error failure =>
        rw [opened] at responded
        cases responded
        exact .unchanged _ (.inr rfl)
      | ok session =>
        rw [opened] at responded
        cases responded
        exact .restarted _ opened
    | help =>
      cases responded
      exact .helped
    | quit =>
      cases responded
      exact .left

/-- A game that waits for an input: it is over, or its cursor stands at a response of the active branch. -/
inductive Waits (game : Game) : Phase → Prop
  | ended (phase : game.session.phase = .ok .over) : Waits game .over
  | choosing (phase : game.session.phase = .ok (.choosing branch))
      (count : game.cursor.count = branch.responses.length)
      (within : game.cursor.index < game.cursor.count) : Waits game (.choosing branch)

theorem Waits.phase_eq (waits : game.Waits phase) : game.session.phase = .ok phase := by
  cases waits with
  | ended phase => exact phase
  | choosing phase _ _ => exact phase

theorem Waits.count_eq (waits : game.Waits (.choosing branch)) :
    game.cursor.count = branch.responses.length := by
  cases waits with
  | choosing _ count _ => exact count

/-- A waiting game that is not over waits for a choice. -/
theorem Waits.choosing_of_unfinished (waits : game.Waits phase)
    (unfinished : game.session.isFinished = false) : ∃ branch, phase = .choosing branch := by
  cases waits with
  | ended reached =>
    rw [Session.phase_eq_over_iff.mp reached] at unfinished
    cases unfinished
  | choosing => exact ⟨_, rfl⟩

/-- The cursor of a waiting game is at one of the responses. -/
theorem Waits.within (waits : game.Waits (.choosing branch)) :
    game.cursor.index < branch.responses.length := by
  cases waits with
  | choosing _ count within => exact count ▸ within

theorem waits_of_beginTurn (began : game.beginTurn = .ok (phase, next)) : next.Waits phase := by
  match reached : game.session.phase with
  | .error failure =>
    rw [beginTurn_of_error reached] at began
    cases began
  | .ok .over =>
    rw [beginTurn_of_over reached] at began
    cases began
    exact .ended reached
  | .ok (.choosing branch) =>
    rw [beginTurn_of_choosing reached] at began
    cases began
    refine .choosing reached rfl ?_
    exact List.length_pos_iff.mpr (Session.phase_eq_choosing_iff.mp reached).2.2

/-- Moving keeps the cursor at a response. -/
theorem Waits.press (waits : game.Waits (.choosing branch)) (key : Key) :
    { game with cursor := game.cursor.press key }.Waits (.choosing branch) := by
  cases waits with
  | choosing phase count within =>
    refine .choosing phase ?_ ?_
    · rw [Cursor.count_press]
      exact count
    · rw [Cursor.count_press]
      exact Cursor.index_press_lt within key

theorem Waits.confirmed? (waits : game.Waits (.choosing branch)) :
    game.cursor.confirmed? .confirm = some game.cursor.index := by
  cases waits with
  | choosing _ _ within => exact if_pos (Nat.zero_lt_of_lt within)

/-- A key that is confirmed where a game waits is taken as a choice, and never refused. -/
theorem Waits.choose (waits : game.Waits (.choosing branch)) :
    ∃ taken, game.session.choose game.cursor.index = .ok taken := by
  obtain ⟨going, active, _⟩ := Session.phase_eq_choosing_iff.mp waits.phase_eq
  exact Session.choose_ok going active waits.within

/-- What comes of a turn that begins is a game that waits. -/
theorem turn_waits (going : game.turn.ending = none) : ∃ phase, game.turn.state.Waits phase := by
  unfold turn at going ⊢
  cases began : game.beginTurn with
  | error failure =>
    rw [began] at going
    cases going
  | ok answer =>
    obtain ⟨phase, next⟩ := answer
    exact ⟨phase, waits_of_beginTurn began⟩

/-- A game that waits and takes an input waits again, unless it ends. -/
theorem step_waits (waits : ∃ phase, game.Waits phase) (going : (game.step setup input).ending = none) :
    ∃ phase, (game.step setup input).state.Waits phase := by
  obtain ⟨phase, waits⟩ := waits
  unfold step at going ⊢
  cases responded : game.respond setup input with
  | error failure =>
    rw [responded] at going
    cases going
  | ok answer =>
    obtain ⟨reply, next⟩ := answer
    rw [responded] at going
    have answered := answered_of_respond responded
    cases reply with
    | left => cases going
    | vain =>
      cases answered with
      | vain => exact ⟨phase, waits⟩
    | pointed =>
      cases answered with
      | helped => exact ⟨phase, waits⟩
      | @moved key unfinished other =>
        obtain ⟨branch, rfl⟩ := waits.choosing_of_unfinished unfinished
        exact ⟨_, waits.press key⟩
    | finished status overwrites =>
      exact turn_waits going

theorem run_waits {inputs : List Input} (going : (game.run setup inputs).ending = none) :
    ∃ phase, (game.run setup inputs).state.Waits phase :=
  Step.followedBy_keeps (fun _ _ => step_waits) turn_waits going

end Game

def ferrySource : String :=
  "[Ferry]\x7b\"pier\"\"Aboard?\"\"Yes.\"(buy ticket; goto deck;)\"No.\"(goto sea;)\x7d" ++
    "\x7b\"deck\"\"Waves.\"\"Land.\"(exit ;)\x7d"

def ferryBranches : List Branch :=
  [⟨"pier", "Aboard?", [⟨"Yes.", [⟨.host "buy", "ticket"⟩, ⟨.goto, "deck"⟩]⟩, ⟨"No.", [⟨.goto, "sea"⟩]⟩]⟩,
    ⟨"deck", "Waves.", [⟨"Land.", [⟨.exit, ""⟩]⟩]⟩]

/-- Two branches, and a response that leads to neither of them. -/
def ferry : Dialogue := ⟨"Ferry", ferryBranches, "pier", indexFrom 0 ferryBranches, rfl⟩

def ferrySetup : Setup := ⟨⟨"/ferry.qdl", ferrySource⟩, .ofNames ["buy"] false, "/ferry.json"⟩

/-- A new game, on a disk with nothing on it. -/
def ferryGame : Game := ⟨.start ferry, .start 0, ⟨.empty, some []⟩⟩

theorem compile_ferrySource : compile (.ofNames ["buy"] false) ferrySource = .ok ferry := by rfl

end Parley
