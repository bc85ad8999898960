import Parley.Play.Turn
import Parley.Proofs.Dialogue.Lookup
import Parley.Proofs.Failing

namespace Parley

def Directive.target? (directive : Directive) : Option String :=
  match directive.command with
  | .goto => some directive.argument
  | .exit => some exitHeader
  | .become | .host _ => none

theorem Directive.eq_of_target? {directive : Directive} {header : String}
    (moves : directive.target? = some header) :
    header = exitHeader ∨ directive.command = .goto ∧ directive.argument = header := by
  unfold target? at moves
  split at moves
  · rename_i goes
    exact .inr ⟨goes, Option.some.inj moves⟩
  · exact .inl (Option.some.inj moves).symm
  · cases moves
  · cases moves

def Response.landing (response : Response) (header : String) : String :=
  (response.directives.filterMap Directive.target?).getLast?.getD header

theorem Effect.active_run (effect : Effect) (directive : Directive) :
    (effect.run directive).active = directive.target?.getD effect.active := by
  unfold run Directive.target?
  cases directive.command <;> rfl

theorem Effect.active_foldl (directives : List Directive) (effect : Effect) :
    (directives.foldl Effect.run effect).active =
      (directives.filterMap Directive.target?).getLast?.getD effect.active := by
  induction directives generalizing effect with
  | nil => rfl
  | cons directive rest ih =>
    rw [List.foldl_cons, ih, active_run]
    cases moves : directive.target? with
    | none => rw [List.filterMap_cons_none moves, Option.getD_none]
    | some header =>
      rw [List.filterMap_cons_some moves, List.getLast?_cons, Option.getD_some, Option.getD_some]

/-- Whether a directive is left for the host. All others move the dialogue. -/
def Directive.isHanded (directive : Directive) : Bool :=
  match directive.command with
  | .goto | .exit => false
  | .become | .host _ => true

def Response.handed (response : Response) : List Directive :=
  response.directives.filter Directive.isHanded

/-- Each of the directives that has another behind it, with the command of that one. -/
def Overwrite.chain (handed : List Directive) : List Overwrite :=
  handed.dropLast.zipWith (fun lost next => ⟨lost, next.command⟩) handed.tail

theorem Effect.run_of_handed {directive : Directive} (handed : directive.isHanded = true) (effect : Effect) :
    effect.run directive =
      { effect with
        external := some directive
        overwrites := effect.overwrites ++
          effect.external.toList.map fun lost => ⟨lost, directive.command⟩ } := by
  unfold Directive.isHanded at handed
  unfold run
  split at handed
  · cases handed
  · cases handed
  all_goals simp_all

theorem Effect.run_of_moving {directive : Directive} (moving : directive.isHanded = false) (effect : Effect) :
    (effect.run directive).external = effect.external ∧
      (effect.run directive).overwrites = effect.overwrites := by
  unfold Directive.isHanded at moving
  unfold run
  split at moving
  · simp_all
  · simp_all
  all_goals cases moving

/-- The slot for the host holds the last of what was put into it, however the dialogue moved between. -/
theorem Effect.external_foldl (directives : List Directive) (effect : Effect) :
    (directives.foldl run effect).external =
      (effect.external.toList ++ directives.filter Directive.isHanded).getLast? := by
  induction directives generalizing effect with
  | nil => cases h : effect.external <;> simp [h]
  | cons directive rest ih =>
    rw [List.foldl_cons, ih]
    cases handed : directive.isHanded with
    | false => rw [(run_of_moving handed effect).1, List.filter_cons_of_neg (by simp [handed])]
    | true =>
      rw [run_of_handed handed, List.filter_cons_of_pos handed]
      simp [List.getLast?_append, List.getLast?_cons]

/-- Everything in the slot but the last is overwritten by what comes next. -/
theorem Effect.overwrites_foldl (directives : List Directive) (effect : Effect) :
    (directives.foldl run effect).overwrites = effect.overwrites ++
      Overwrite.chain (effect.external.toList ++ directives.filter Directive.isHanded) := by
  induction directives generalizing effect with
  | nil => cases effect.external <;> simp [Overwrite.chain]
  | cons directive rest ih =>
    rw [List.foldl_cons, ih]
    cases handed : directive.isHanded with
    | false =>
      obtain ⟨slot, logged⟩ := run_of_moving handed effect
      rw [slot, logged, List.filter_cons_of_neg (by simp [handed])]
    | true =>
      rw [run_of_handed handed, List.filter_cons_of_pos handed]
      cases effect.external <;> simp [Overwrite.chain]

namespace Dialogue

/-- What choosing a response does, read off its directives. -/
theorem choose_eq {dialogue : Dialogue} {choice : Nat} {response : Response} (going : dialogue.isOver = false)
    (active : dialogue.activeBranch = .ok branch) (picked : branch.responses[choice]? = some response) :
    dialogue.choose choice = .ok ⟨dialogue.moveTo (response.landing dialogue.active),
      response.handed.getLast?, Overwrite.chain response.handed⟩ := by
  unfold choose
  rw [going, active]
  simp [picked, Effect.active_foldl, Effect.external_foldl, Effect.overwrites_foldl, Response.landing,
    Response.handed]

/-- A response of the active branch can be chosen while the dialogue goes on. -/
theorem choose_ok {dialogue : Dialogue} {choice : Nat} (going : dialogue.isOver = false)
    (active : dialogue.activeBranch = .ok branch) (within : choice < branch.responses.length) :
    ∃ chosen, dialogue.choose choice = .ok chosen :=
  ⟨_, choose_eq going active (List.getElem?_eq_getElem within)⟩

theorem choose_inv {dialogue : Dialogue} {choice : Nat} (chose : dialogue.choose choice = .ok chosen) :
    dialogue.isOver = false ∧ ∃ branch response, dialogue.activeBranch = .ok branch ∧
      branch.responses[choice]? = some response ∧
      chosen.dialogue = dialogue.moveTo (response.landing dialogue.active) := by
  unfold choose at chose
  split at chose
  · cases chose
  · rename_i going
    obtain ⟨branch, active, chose⟩ := bind_ok chose
    split at chose
    · cases chose
    · rename_i response picked
      cases chose
      refine ⟨by simpa using going, branch, response, active, picked, ?_⟩
      exact congrArg dialogue.moveTo (Effect.active_foldl response.directives _)

theorem choose_external {dialogue : Dialogue} {choice : Nat} (chose : dialogue.choose choice = .ok chosen)
    (left : chosen.external = some directive) :
    ∃ branch ∈ dialogue.branches, ∃ response ∈ branch.responses, directive ∈ response.directives := by
  obtain ⟨going, branch, response, active, picked, _⟩ := choose_inv chose
  rw [choose_eq going active picked] at chose
  cases chose
  refine ⟨branch, (mem_of_activeBranch active).1, response, List.mem_of_getElem? picked, ?_⟩
  exact (List.mem_filter.mp (List.mem_of_getLast? left)).1

/-- A choice among the responses of the active branch fails only where the dialogue is over. -/
theorem ended_of_choose {dialogue : Dialogue} {choice : Nat} {failure : Failure}
    (active : dialogue.activeBranch = .ok branch) (within : choice < branch.responses.length)
    (refused : dialogue.choose choice = .error failure) : failure = ⟨.play (.ended dialogue.title), none⟩ := by
  cases ended : dialogue.isOver with
  | true =>
    rw [choose, ended] at refused
    exact (Except.error.inj refused).symm
  | false =>
    obtain ⟨chosen, chose⟩ := choose_ok ended active within
    rw [chose] at refused
    cases refused

end Dialogue

def Breakdown.failure : Breakdown → Failure
  | drawing failure => failure
  | listening failure => failure

namespace Key

/-- Where a key moves the highlight among `count` responses: by one, but not past either end. -/
def move (count index : Nat) : Key → Nat
  | up => index - 1
  | down => min (index + 1) (count - 1)
  | confirm | other => index

/-- Where keys move the highlight one after the other. -/
def moves (count index : Nat) (keys : List Key) : Nat := keys.foldl (move count) index

theorem move_lt {count index : Nat} (within : index < count) (key : Key) : key.move count index < count := by
  cases key with
  | up => exact Nat.lt_of_le_of_lt (Nat.sub_le _ _) within
  | down =>
    rw [move]
    omega
  | confirm | other => exact within

theorem moves_lt {count index : Nat} (within : index < count) (keys : List Key) :
    moves count index keys < count := by
  induction keys generalizing index with
  | nil => exact within
  | cons key rest ih => exact ih (move_lt within key)

end Key

namespace Cursor

@[simp]
theorem count_press (cursor : Cursor) (key : Key) : (cursor.press key).count = cursor.count := by
  cases key with
  | down =>
    rw [press]
    split <;> rfl
  | up | confirm | other => rfl

theorem index_press {cursor : Cursor} (within : cursor.index < cursor.count) (key : Key) :
    (cursor.press key).index = key.move cursor.count cursor.index := by
  cases key with
  | up | confirm | other => rfl
  | down =>
    rw [press, Key.move]
    split
    · simp only
      omega
    · omega

theorem index_press_lt {cursor : Cursor} (within : cursor.index < cursor.count) (key : Key) :
    (cursor.press key).index < cursor.count := by
  rw [index_press within]
  exact Key.move_lt within key

/-- Where something can be chosen, a confirmation chooses what is highlighted. -/
theorem confirmed?_eq_some_iff {cursor : Cursor} (within : cursor.index < cursor.count) {key : Key}
    {index : Nat} : cursor.confirmed? key = some index ↔ key = .confirm ∧ cursor.index = index := by
  cases key with
  | confirm => simp [confirmed?, Nat.zero_lt_of_lt within]
  | up | down | other => simp [confirmed?]

theorem confirmed?_eq_none {cursor : Cursor} {key : Key} (other : key ≠ .confirm) :
    cursor.confirmed? key = none := by
  cases key with
  | confirm => exact absurd rfl other
  | up | down | other => rfl

end Cursor

namespace Terminal

/-- The first confirmation ends a reading, and no key behind it is read. -/
theorem readFrom_confirm (branch : Branch) (breakdown : Breakdown) {cursor : Cursor} {keys : List Key}
    (within : cursor.index < cursor.count) (unconfirmed : .confirm ∉ keys) (later : List Key) :
    (readFrom branch breakdown cursor (keys ++ .confirm :: later)).outcome =
        .ok (Key.moves cursor.count cursor.index keys) ∧
      (readFrom branch breakdown cursor (keys ++ .confirm :: later)).unread = later := by
  induction keys generalizing cursor with
  | nil =>
    have chosen := (Cursor.confirmed?_eq_some_iff within).mpr ⟨rfl, rfl⟩
    rw [List.nil_append, readFrom, chosen]
    exact ⟨rfl, rfl⟩
  | cons key rest ih =>
    have other := List.ne_of_not_mem_cons unconfirmed
    have unconfirmed := List.not_mem_of_not_mem_cons unconfirmed
    have moved := Cursor.index_press_lt within key
    have read := ih (cursor.count_press key ▸ moved) unconfirmed
    rw [Cursor.index_press within, Cursor.count_press] at read
    rw [List.cons_append, readFrom, Cursor.confirmed?_eq_none (Ne.symm other)]
    exact read

/-- Where nothing is confirmed, a reading goes on until the terminal breaks down. -/
theorem readFrom_unconfirmed (branch : Branch) (breakdown : Breakdown) (cursor : Cursor) {keys : List Key}
    (unconfirmed : .confirm ∉ keys) :
    (readFrom branch breakdown cursor keys).outcome = .error breakdown.failure := by
  induction keys generalizing cursor with
  | nil => cases breakdown <;> rfl
  | cons key rest ih =>
    have other := List.ne_of_not_mem_cons unconfirmed
    have unconfirmed := List.not_mem_of_not_mem_cons unconfirmed
    rw [readFrom, Cursor.confirmed?_eq_none (Ne.symm other)]
    exact ih (cursor.press key) unconfirmed

end Terminal

namespace Dialogue

variable {dialogue : Dialogue} {branch : Branch} {terminal : Terminal}

theorem readChoice_of_active (active : dialogue.activeBranch = .ok branch) (answered : branch.responses ≠ [])
    (terminal : Terminal) :
    dialogue.readChoice terminal =
      Terminal.readFrom branch terminal.breakdown (.start branch.responses.length) terminal.keys := by
  rw [readChoice, active]
  simp [answered]

theorem readChoice_confirm (active : dialogue.activeBranch = .ok branch) (answered : branch.responses ≠ [])
    {keys later : List Key} (split : terminal.keys = keys ++ .confirm :: later) (unconfirmed : .confirm ∉ keys) :
    (dialogue.readChoice terminal).outcome = .ok (Key.moves branch.responses.length 0 keys) ∧
      (dialogue.readChoice terminal).unread = later := by
  have within : (Cursor.start branch.responses.length).index < (Cursor.start branch.responses.length).count :=
    List.length_pos_iff.mpr answered
  rw [readChoice_of_active active answered, split]
  exact Terminal.readFrom_confirm branch terminal.breakdown within unconfirmed later

/-- A turn is the choice that its reading comes to. -/
theorem runTurn_of_read (read : (dialogue.readChoice terminal).outcome = .ok choice) :
    dialogue.runTurn terminal = dialogue.choose choice := by
  rw [runTurn, read]
  rfl

theorem runTurn_unconfirmed (active : dialogue.activeBranch = .ok branch) (answered : branch.responses ≠ [])
    (unconfirmed : .confirm ∉ terminal.keys) :
    dialogue.runTurn terminal = .error terminal.breakdown.failure := by
  rw [runTurn, readChoice_of_active active answered,
    Terminal.readFrom_unconfirmed branch terminal.breakdown _ unconfirmed]
  rfl

/-- A turn at a branch with responses is a choice among them, unless the terminal breaks down first. -/
theorem runTurn_cases (active : dialogue.activeBranch = .ok branch) (answered : branch.responses ≠ [])
    (terminal : Terminal) :
    (.confirm ∈ terminal.keys ∧
      ∃ choice < branch.responses.length, dialogue.runTurn terminal = dialogue.choose choice) ∨
    (.confirm ∉ terminal.keys ∧ dialogue.runTurn terminal = .error terminal.breakdown.failure) := by
  by_cases confirms : .confirm ∈ terminal.keys
  · obtain ⟨keys, later, split, unconfirmed⟩ := List.eq_append_cons_of_mem confirms
    have read := (readChoice_confirm active answered split unconfirmed).1
    exact .inl ⟨confirms, _, Key.moves_lt (List.length_pos_iff.mpr answered) keys, runTurn_of_read read⟩
  · exact .inr ⟨confirms, runTurn_unconfirmed active answered confirms⟩

theorem runTurn_inv {dialogue : Dialogue} (ran : dialogue.runTurn terminal = .ok chosen) :
    ∃ choice, dialogue.choose choice = .ok chosen := by
  obtain ⟨choice, _, chose⟩ := bind_ok ran
  exact ⟨choice, chose⟩

end Dialogue

end Parley
