import Parley.Proofs.Play.Session
import Parley.Proofs.Play.Turn
import Parley.Proofs.Writing.Image

/-! Sessions held in one place. A call that fails half way leaves behind whatever it had done by then, so that
a failure changes nothing is something to be shown: each of them lies before the first move. -/

namespace Parley

namespace Session

/-- Work on a session held in one place. A failure takes nothing back. -/
abbrev Held := EStateM Failure Session

/-- What the directives run so far leave for the host. -/
structure Handed where
  external : Option Directive
  overwrites : List Overwrite

namespace Held

def move (header : String) : Held Unit :=
  modify fun session => { session with dialogue := session.dialogue.moveTo header }

def countTurn : Held Unit := modify fun session => { session with turns := session.turns + 1 }

/-- A directive moves the held dialogue at once, with those after it still to run. -/
def follow (handed : Handed) (directive : Directive) : Held Handed := do
  match directive.command with
  | .goto =>
    move directive.argument
    return handed
  | .exit =>
    move exitHeader
    return handed
  | .become | .host _ =>
    let displaced := handed.external.toList.map fun lost => ⟨lost, directive.command⟩
    return ⟨some directive, handed.overwrites ++ displaced⟩

def choose (index : Nat) : Held Handed := do
  let held ← get
  if held.dialogue.isOver then
    throw ⟨.play (.ended held.dialogue.title), none⟩
  else
    let branch ← MonadExcept.ofExcept held.dialogue.activeBranch
    match branch.responses[index]? with
    | none => throw ⟨.play (.outOfRange index branch.header branch.responses.length), none⟩
    | some response =>
      let handed ← response.directives.foldlM follow ⟨none, []⟩
      countTurn
      return handed

def turn (terminal : Terminal) : Held Handed := do
  let held ← get
  let index ← MonadExcept.ofExcept (held.dialogue.readChoice terminal).outcome
  choose index

def restore (header : String) : Held Unit := do
  let held ← get
  if header ≠ exitHeader && (held.dialogue.branch? header).isNone then
    throw ⟨.play (.unknownBranch held.dialogue.title header), none⟩
  else
    move header

def perform : Call → Held Unit
  | .choose index => do
    let _ ← choose index
    return ()
  | .turn terminal => do
    let _ ← turn terminal
    return ()
  | .restore header => restore header

end Held

variable {session next : Session} {dialogue : Dialogue} {call : Call} {failure : Failure}

namespace Held

theorem run_bind_ok {work : Held α} {later : α → Held β} (went : work.run session = .ok value next) :
    (work >>= later).run session = (later value).run next := by
  rw [EStateM.run_bind, went]

theorem run_follow (session : Session) (effect : Effect) (directive : Directive) :
    (follow ⟨effect.external, effect.overwrites⟩ directive).run
        { session with dialogue := session.dialogue.moveTo effect.active } =
      .ok ⟨(effect.run directive).external, (effect.run directive).overwrites⟩
        { session with dialogue := session.dialogue.moveTo (effect.run directive).active } := by
  unfold follow Effect.run
  cases directive.command <;> rfl

theorem run_foldlM_follow (session : Session) (directives : List Directive) (effect : Effect) :
    (directives.foldlM follow ⟨effect.external, effect.overwrites⟩).run
        { session with dialogue := session.dialogue.moveTo effect.active } =
      let last := directives.foldl Effect.run effect
      .ok ⟨last.external, last.overwrites⟩
        { session with dialogue := session.dialogue.moveTo last.active } := by
  induction directives generalizing effect with
  | nil => rfl
  | cons directive rest ih =>
    rw [List.foldlM_cons, run_bind_ok (run_follow session effect directive)]
    exact ih (effect.run directive)

end Held

/-- How a choice leaves the place it was made in: moved and counted as a whole, or as it was. -/
def settle (session : Session) : Except Failure Taken → EStateM.Result Failure Session Handed
  | .ok taken => .ok ⟨taken.external, taken.overwrites⟩ taken.session
  | .error failure => .error failure session

/-- Both checks of a choice lie before its first directive. -/
theorem run_choose (session : Session) (index : Nat) :
    (Held.choose index).run session = session.settle (session.choose index) := by
  unfold Session.choose Dialogue.choose Held.choose
  rw [Held.run_bind_ok (EStateM.run_get session)]
  cases session.dialogue.isOver with
  | true => rfl
  | false =>
    cases active : session.dialogue.activeBranch with
    | error failure => rfl
    | ok branch =>
      have given : (MonadExcept.ofExcept (.ok branch) : Held Branch).run session = .ok branch session := rfl
      rw [if_neg Bool.false_ne_true, if_neg Bool.false_ne_true, ok_bind, Held.run_bind_ok given]
      cases picked : branch.responses[index]? with
      | none => rfl
      | some response =>
        have ran := Held.run_foldlM_follow session response.directives ⟨session.dialogue.active, none, []⟩
        exact Held.run_bind_ok ran

/-- How a turn goes on from its reading: with the choice that was read, or, where the reading failed, not at
all. -/
def pursue (session : Session) : Except Failure Nat → EStateM.Result Failure Session Handed
  | .ok index => (Held.choose index).run session
  | .error failure => .error failure session

theorem run_turn_eq (session : Session) (terminal : Terminal) :
    (Held.turn terminal).run session = session.pursue (session.dialogue.readChoice terminal).outcome := by
  unfold Held.turn
  rw [Held.run_bind_ok (EStateM.run_get session)]
  cases (session.dialogue.readChoice terminal).outcome <;> rfl

theorem run_turn (session : Session) (terminal : Terminal) :
    (Held.turn terminal).run session = session.settle (session.runTurn terminal) := by
  rw [run_turn_eq, runTurn, Dialogue.runTurn]
  cases read : (session.dialogue.readChoice terminal).outcome with
  | error failure => rfl
  | ok index => exact session.run_choose index

/-- Made in place, a call ends as `attempt` has it, and a failure leaves the session that it met. -/
theorem run_perform (session : Session) (call : Call) :
    (Held.perform call).run session =
      match session.attempt call with
      | .ok next => .ok () next
      | .error failure => .error failure session := by
  cases call with
  | choose index =>
    rw [Held.perform, attempt, EStateM.run_bind, run_choose]
    cases session.choose index <;> rfl
  | turn terminal =>
    rw [Held.perform, attempt, EStateM.run_bind, run_turn]
    cases session.runTurn terminal <;> rfl
  | restore header =>
    rw [Held.perform, attempt, Session.restore, Held.restore, Held.run_bind_ok (EStateM.run_get session)]
    split
    · rfl
    · rfl

/-- Whether a call is a turn of the dialogue if it succeeds. -/
def Call.takesTurn : Call → Bool
  | .choose _ | .turn _ => true
  | .restore _ => false

/-- What calls come to: those that succeeded, in order, and the session they leave. -/
structure Played where
  succeeded : List Call
  session : Session

def play (session : Session) : List Call → Played
  | [] => ⟨[], session⟩
  | call :: rest =>
    match (Held.perform call).run session with
    | .ok _ next => ⟨call :: (play next rest).succeeded, (play next rest).session⟩
    | .error _ kept => play kept rest

/-- A choice that is taken moves the dialogue, counts, and does nothing else. -/
theorem choose_inv (chose : session.choose index = .ok taken) :
    taken.session.dialogue = session.dialogue.moveTo taken.session.dialogue.active ∧
      taken.session.turns = session.turns + 1 := by
  obtain ⟨chosen, went, rest⟩ := bind_ok chose
  cases rest
  obtain ⟨_, _, _, _, _, moved⟩ := Dialogue.choose_inv went
  rw [advance, moved]
  exact ⟨rfl, rfl⟩

theorem runTurn_inv (ran : session.runTurn terminal = .ok taken) :
    ∃ index, session.choose index = .ok taken := by
  obtain ⟨chosen, went, rest⟩ := bind_ok ran
  obtain ⟨index, chose⟩ := Dialogue.runTurn_inv went
  refine ⟨index, ?_⟩
  rw [choose, chose]
  exact rest

/-- What a call does to the session it is made on. -/
theorem perform_cases (session : Session) (call : Call) :
    (∃ next, (Held.perform call).run session = .ok () next ∧
      next.dialogue = session.dialogue.moveTo next.dialogue.active ∧
      next.turns = session.turns + if call.takesTurn then 1 else 0) ∨
    ∃ failure, (Held.perform call).run session = .error failure session := by
  rw [run_perform]
  cases went : session.attempt call with
  | error failure => exact .inr ⟨failure, rfl⟩
  | ok next =>
    refine .inl ⟨next, rfl, ?_⟩
    cases call with
    | choose index =>
      obtain ⟨taken, chose, same⟩ := bind_ok went
      cases same
      exact choose_inv chose
    | turn terminal =>
      obtain ⟨taken, ran, same⟩ := bind_ok went
      cases same
      obtain ⟨index, chose⟩ := runTurn_inv ran
      exact choose_inv chose
    | restore header =>
      rw [attempt, restore] at went
      split at went
      · cases went
      · cases went
        exact ⟨rfl, rfl⟩

theorem play_moves (session : Session) (calls : List Call) :
    (session.play calls).session.dialogue =
        session.dialogue.moveTo (session.play calls).session.dialogue.active ∧
      (session.play calls).session.turns =
        session.turns + (session.play calls).succeeded.countP Call.takesTurn := by
  induction calls generalizing session with
  | nil => exact ⟨rfl, rfl⟩
  | cons call rest ih =>
    rw [play]
    rcases session.perform_cases call with ⟨next, went, moved, counted⟩ | ⟨failure, failed⟩
    · rw [went]
      obtain ⟨later, total⟩ := ih next
      refine ⟨?_, ?_⟩
      · rw [later, moved]
        rfl
      · dsimp only
        rw [total, counted, List.countP_cons]
        omega
    · rw [failed]
      exact ih session

/-- Where no branch is active, nothing can be chosen, and a turn asks its terminal for nothing. -/
theorem stopped_of_lost (lost : session.dialogue.activeBranch = .error failure) :
    (∀ index, ∃ failure, session.choose index = .error failure) ∧
      ∀ terminal : Terminal,
        session.dialogue.readChoice terminal = ⟨[], terminal.keys, .error failure⟩ ∧
          session.runTurn terminal = .error failure := by
  constructor
  · intro index
    unfold choose Dialogue.choose
    split
    · exact ⟨_, rfl⟩
    · rw [lost]
      exact ⟨_, rfl⟩
  · intro terminal
    have read : session.dialogue.readChoice terminal = ⟨[], terminal.keys, .error failure⟩ := by
      rw [Dialogue.readChoice, lost]
    refine ⟨read, ?_⟩
    rw [runTurn, Dialogue.runTurn, read]
    rfl

theorem perform_of_lost (lost : session.dialogue.activeBranch = .error failure)
    (takes : call.takesTurn = true) :
    ∃ failure, (Held.perform call).run session = .error failure session := by
  obtain ⟨unchosen, unread⟩ := stopped_of_lost lost
  rw [run_perform]
  cases call with
  | choose index =>
    obtain ⟨failure, refused⟩ := unchosen index
    rw [attempt, refused]
    exact ⟨failure, rfl⟩
  | turn terminal =>
    rw [attempt, (unread terminal).2]
    exact ⟨failure, rfl⟩
  | restore header => cases takes

/-- A session without an active branch stays as it is as long as nothing restores it. -/
theorem play_of_lost (lost : session.dialogue.activeBranch = .error failure) {calls : List Call}
    (unrestored : ∀ call ∈ (session.play calls).succeeded, call.takesTurn = true) :
    session.play calls = ⟨[], session⟩ := by
  induction calls with
  | nil => rfl
  | cons call rest ih =>
    rw [play] at unrestored ⊢
    rcases session.perform_cases call with ⟨next, went, _⟩ | ⟨_, failed⟩
    · rw [went] at unrestored
      obtain ⟨_, refused⟩ := perform_of_lost lost (unrestored call List.mem_cons_self)
      rw [went] at refused
      cases refused
    · rw [failed] at unrestored ⊢
      exact ih unrestored

/-- No branch of a compiled dialogue is written under the header of its end. -/
theorem lost_of_stopped {origin dialogue : Dialogue} (compiled : compile options source = .ok origin)
    (moved : dialogue = origin.moveTo dialogue.active)
    (stopped : dialogue.active = exitHeader ∨
      dialogue.active ∉ dialogue.branches.map Branch.header) :
    ∃ failure, dialogue.activeBranch = .error failure := by
  cases active : dialogue.activeBranch with
  | error failure => exact ⟨failure, rfl⟩
  | ok branch =>
    obtain ⟨member, carries⟩ := Dialogue.mem_of_activeBranch active
    rcases stopped with ended | unknown
    · rw [moved] at member
      exact absurd (carries.trans ended) ((wellFormed_of_compile compiled).branches branch member).unreserved
    · exact absurd (List.mem_map.mpr ⟨branch, member, carries⟩) unknown

end Session

/-- Only calls that succeed change a session. Whatever calls are made on a session over a compiled dialogue,
they move it and count its turns, a call that fails leaves it as it was, and once no branch is active, each
choice and turn fails, without anything shown or any key read, until a header is restored. -/
theorem session_changed_by_success_only (compiled : compile options source = .ok dialogue)
    (calls : List Session.Call) :
    let played := (Session.start dialogue).play calls
    let reached := played.session
    (reached.dialogue.title = dialogue.title ∧ reached.dialogue.branches = dialogue.branches) ∧
    reached.turns = played.succeeded.countP Session.Call.takesTurn ∧
    (∀ call failure kept, (Session.Held.perform call).run reached = .error failure kept → kept = reached) ∧
    (reached.dialogue.active = exitHeader ∨
        reached.dialogue.active ∉ reached.dialogue.branches.map Branch.header →
      ∀ later, (∀ call ∈ (reached.play later).succeeded, call.takesTurn = true) →
        reached.play later = ⟨[], reached⟩ ∧
        (∀ index, ∃ failure, (Session.Held.choose index).run reached = .error failure reached) ∧
        ∀ terminal, ∃ failure, (Session.Held.turn terminal).run reached = .error failure reached ∧
          reached.dialogue.readChoice terminal = ⟨[], terminal.keys, .error failure⟩) := by
  intro played reached
  obtain ⟨moved, counted⟩ := (Session.start dialogue).play_moves calls
  refine ⟨⟨by rw [moved]; rfl, by rw [moved]; rfl⟩, counted.trans (Nat.zero_add _), ?_, ?_⟩
  · intro call failure kept failed
    rcases reached.perform_cases call with ⟨next, went, _⟩ | ⟨_, refused⟩
    · rw [went] at failed
      cases failed
    · rw [refused] at failed
      cases failed
      rfl
  · intro stopped later unrestored
    obtain ⟨failure, lost⟩ := Session.lost_of_stopped compiled moved stopped
    obtain ⟨unchosen, unread⟩ := Session.stopped_of_lost lost
    refine ⟨Session.play_of_lost lost unrestored, ?_, ?_⟩
    · intro index
      obtain ⟨failure, refused⟩ := unchosen index
      exact ⟨failure, by rw [Session.run_choose, refused]; rfl⟩
    · intro terminal
      obtain ⟨read, refused⟩ := unread terminal
      exact ⟨failure, by rw [Session.run_turn, refused]; rfl, read⟩

/-- A choice out of range, one that is taken, and a move to the end. -/
def leavingCalls : List Session.Call := [.choose 7, .choose 0, .restore exitHeader]

/-- What is tried on a session that is over; no branch is called "moat". -/
def belatedCalls : List Session.Call :=
  [.choose 0, .turn ⟨[.down, .confirm], .drawing ⟨.raised "NO_SCREEN" "closed", none⟩⟩, .restore "moat"]

theorem session_changed_by_success_only_at_gate :
    compile (.ofNames ["knock"] true) gateSource = .ok gateDialogue ∧
    let played := (Session.start gateDialogue).play leavingCalls
    let reached := played.session
    played.succeeded = [.choose 0, .restore exitHeader] ∧ reached.turns = 1 ∧
    reached.dialogue.active = exitHeader ∧ reached.dialogue.branches = gateBranches ∧
    reached.play belatedCalls = ⟨[], reached⟩ ∧
    ∀ index, ∃ failure, (Session.Held.choose index).run reached = .error failure reached := by
  obtain ⟨⟨_, branches⟩, turns, _, stops⟩ := session_changed_by_success_only compile_gateSource leavingCalls
  have ended : ((Session.start gateDialogue).play leavingCalls).session.dialogue.active = exitHeader := by rfl
  have unrestored : (((Session.start gateDialogue).play leavingCalls).session.play belatedCalls).succeeded
      = [] := by rfl
  obtain ⟨same, unchosen, _⟩ := stops (.inl ended) belatedCalls (by simp [unrestored])
  exact ⟨compile_gateSource, rfl, turns, ended, branches, same, unchosen⟩

end Parley
