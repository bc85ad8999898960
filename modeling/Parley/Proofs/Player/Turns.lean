import Parley.Proofs.Player.Game

namespace Parley

/-- What pressing keys comes to; `unread` are those behind the key that finished the turn. -/
structure Pressed where
  unread : List Key
  reply : Reply
  game : Game

def Game.pressAll (game : Game) : List Key → Except Failure Pressed
  | [] => .ok ⟨[], .pointed, game⟩
  | key :: rest => do
    match (← game.press key) with
    | (.pointed, next) => next.pressAll rest
    | (reply, next) => return ⟨rest, reply, next⟩

theorem Session.runTurn_eq (session : Session) (terminal : Terminal) :
    session.runTurn terminal = (session.dialogue.readChoice terminal).outcome >>= session.choose := by
  simp only [runTurn, Dialogue.runTurn, bind_assoc]
  rfl

namespace Game

variable {game begun : Game} {branch : Branch}

/-- Where a game stands after a reading of `keys` at its cursor. -/
def afterReading (game : Game) (keys : List Key) (reading : Reading) : Except Failure Pressed :=
  match reading.outcome with
  | .ok index => do
    let taken ← game.session.choose index
    let cursor := ⟨index, game.cursor.count⟩
    return ⟨reading.unread, .finished (statusOf taken.external) taken.overwrites,
      { game with session := taken.session, cursor }⟩
  | .error _ => .ok ⟨[], .pointed, { game with cursor := keys.foldl Cursor.press game.cursor }⟩

theorem pressAll_eq (going : game.session.isFinished = false) (branch : Branch) (breakdown : Breakdown)
    (keys : List Key) :
    game.pressAll keys =
      game.afterReading keys (Terminal.readFrom branch breakdown game.cursor keys) := by
  induction keys generalizing game with
  | nil => cases breakdown <;> rfl
  | cons key rest ih =>
    cases confirmed : game.cursor.confirmed? key with
    | some index =>
      have same : game.cursor = ⟨index, game.cursor.count⟩ := by
        rw [Cursor.index_of_confirmed? confirmed]
      simp only [pressAll, press, going, confirmed, Terminal.readFrom, afterReading]
      cases game.session.choose index with
      | error failure => rfl
      | ok taken =>
        rw [← same]
        rfl
    | none =>
      have moved : game.press key = .ok (.pointed, { game with cursor := game.cursor.press key }) := by
        rw [press, going, confirmed]
        rfl
      have later := @ih { game with cursor := game.cursor.press key } going
      simp only [pressAll, moved, ok_bind, Terminal.readFrom, confirmed]
      rw [later]
      simp only [afterReading, Cursor.count_press, List.foldl_cons]

theorem choosing_of_beginTurn (begins : game.beginTurn = .ok (.choosing branch, begun)) :
    game.session.phase = .ok (.choosing branch) ∧
      begun = { game with cursor := .start branch.responses.length } := by
  have phase : game.session.phase = .ok (.choosing branch) := by
    unfold beginTurn at begins
    obtain ⟨phase, reached, begins⟩ := bind_ok begins
    cases phase <;> cases begins
    exact reached
  rw [beginTurn_of_choosing phase] at begins
  cases begins
  exact ⟨phase, rfl⟩

/-- A turn of a player is a turn of its session: it begins where the reading of a choice does, and the keys
that are pressed in it finish it as they finish the reading. -/
theorem pressAll_of_beginTurn (begins : game.beginTurn = .ok (.choosing branch, begun)) (keys : List Key)
    (breakdown : Breakdown) :
    let terminal : Terminal := ⟨keys, breakdown⟩
    let reading := game.session.dialogue.readChoice terminal
    begun.session = game.session ∧ begun.disk = game.disk ∧
      begun.pressAll keys = begun.afterReading keys reading ∧
      game.session.runTurn terminal = reading.outcome >>= begun.session.choose := by
  obtain ⟨phase, rfl⟩ := choosing_of_beginTurn begins
  obtain ⟨going, active, answered⟩ := Session.phase_eq_choosing_iff.mp phase
  refine ⟨rfl, rfl, ?_, Session.runTurn_eq _ _⟩
  rw [Dialogue.readChoice_of_active active answered]
  exact @pressAll_eq { game with cursor := .start branch.responses.length } going branch breakdown keys

/-- An action asked for in the middle of a turn breaks it off: the turn fails with the signal of the action,
from which it is known again, and the player is still in the session that it was in. -/
theorem runTurn_of_action (begins : game.beginTurn = .ok (.choosing branch, begun)) {keys : List Key}
    (unconfirmed : .confirm ∉ keys) (action : Action) :
    ∃ moved failure, begun.pressAll keys = .ok ⟨[], .pointed, moved⟩ ∧ moved.session = game.session ∧
      game.session.runTurn ⟨keys, .listening action.signal⟩ = .error failure ∧
      Action.ofFailure? failure = some action := by
  obtain ⟨phase, -⟩ := choosing_of_beginTurn begins
  obtain ⟨-, active, answered⟩ := Session.phase_eq_choosing_iff.mp phase
  obtain ⟨same, -, pressed, ran⟩ := pressAll_of_beginTurn begins keys (.listening action.signal)
  have broken : (game.session.dialogue.readChoice ⟨keys, .listening action.signal⟩).outcome =
      .error action.signal := by
    rw [Dialogue.readChoice_of_active active answered]
    exact Terminal.readFrom_unconfirmed branch _ _ unconfirmed
  simp only [afterReading, broken] at pressed
  rw [broken] at ran
  exact ⟨_, action.signal, pressed, same, ran, action.ofFailure?_signal⟩

/-- Where a turn cannot begin, the reading of a choice is refused before anything is shown. -/
theorem readChoice_of_beginTurn {failure : Failure} (going : game.session.isFinished = false)
    (refused : game.beginTurn = .error failure) (terminal : Terminal) :
    game.session.dialogue.readChoice terminal = ⟨[], terminal.keys, .error failure⟩ ∧
      game.session.runTurn terminal = .error failure := by
  have read : game.session.dialogue.readChoice terminal = ⟨[], terminal.keys, .error failure⟩ := by
    unfold Dialogue.readChoice
    cases active : game.session.dialogue.activeBranch with
    | error lost =>
      have phase : game.session.phase = .error lost := by simp [Session.phase, going, active]
      rw [beginTurn_of_error phase] at refused
      cases refused
      rfl
    | ok branch =>
      have phase := Session.phase_of_active going active
      cases silent : branch.responses with
      | nil =>
        rw [if_pos silent] at phase
        rw [beginTurn_of_error phase] at refused
        cases refused
        simp [silent]
      | cons first rest =>
        rw [if_neg (by simp [silent])] at phase
        rw [beginTurn_of_choosing phase] at refused
        cases refused
  rw [Session.runTurn_eq, read]
  exact ⟨rfl, rfl⟩

end Game

end Parley
