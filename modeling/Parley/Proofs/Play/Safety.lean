import Parley.Proofs.Dialogue.References
import Parley.Proofs.Play.Session
import Parley.Proofs.Play.Turn
import Parley.Proofs.Writing.Image

namespace Parley

variable {options : Options}

/-- Every branch can be answered, every `goto` leads to a branch, and the dialogue is at one or over. -/
structure Dialogue.Safe (dialogue : Dialogue) : Prop where
  answered : ∀ branch ∈ dialogue.branches, branch.responses ≠ []
  linked : dialogue.Linked
  anchored : dialogue.active = exitHeader ∨ dialogue.active ∈ dialogue.branches.map Branch.header

namespace Dialogue

variable {dialogue : Dialogue}

theorem safe_of_compile (strict : options.strict = true)
    (compiled : compile options source = .ok dialogue) : dialogue.Safe := by
  have formed := wellFormed_of_compile compiled
  obtain ⟨_, _, clear⟩ := (compile_ok_iff options source dialogue).mp compiled
  obtain ⟨_, linked⟩ := dialogue.checkReferences_ok_iff.mp (clear strict)
  obtain ⟨first, rest, branches, active, _⟩ := formed.opening
  refine ⟨fun branch member => (formed.branches branch member).answered, linked, .inr ?_⟩
  rw [active, branches]
  exact List.mem_cons_self

/-- Only the active header ever moves, so a move is safe if its target is. -/
theorem Safe.moveTo (safe : dialogue.Safe)
    (known : header = exitHeader ∨ header ∈ dialogue.branches.map Branch.header) :
    (dialogue.moveTo header).Safe :=
  ⟨safe.answered, safe.linked, known⟩

theorem Safe.landing (safe : dialogue.Safe) (member : branch ∈ dialogue.branches)
    (offered : response ∈ branch.responses) :
    response.landing dialogue.active = exitHeader ∨
      response.landing dialogue.active ∈ dialogue.branches.map Branch.header := by
  unfold Response.landing
  cases last : (response.directives.filterMap Directive.target?).getLast? with
  | none => exact safe.anchored
  | some header =>
    obtain ⟨directive, listed, moves⟩ := List.mem_filterMap.mp (List.mem_of_getLast? last)
    rcases Directive.eq_of_target? moves with ends | ⟨goes, target⟩
    · exact .inl ends
    · right
      rw [Option.getD_some, ← target]
      exact safe.linked branch member response offered directive listed goes

theorem Safe.choose {choice : Nat} (safe : dialogue.Safe)
    (chose : dialogue.choose choice = .ok chosen) : chosen.dialogue.Safe := by
  obtain ⟨_, branch, response, active, picked, moved⟩ := choose_inv chose
  rw [moved]
  apply safe.moveTo
  exact safe.landing (mem_of_activeBranch active).1 (List.mem_of_getElem? picked)

theorem Safe.runTurn (safe : dialogue.Safe) (ran : dialogue.runTurn terminal = .ok chosen) :
    chosen.dialogue.Safe := by
  obtain ⟨choice, chose⟩ := runTurn_inv ran
  exact safe.choose chose

theorem Safe.activeBranch (safe : dialogue.Safe) (going : dialogue.isOver = false) :
    ∃ branch, dialogue.activeBranch = .ok branch ∧ branch.responses ≠ [] := by
  have known : dialogue.active ∈ dialogue.branches.map Branch.header := by
    rcases safe.anchored with ended | known
    · exact absurd ended (beq_eq_false_iff_ne.mp going)
    · exact known
  obtain ⟨branch, found⟩ := (dialogue.exists_branch?_iff _).mpr known
  exact ⟨branch, activeBranch_of_branch? found, safe.answered branch (mem_of_branch? found).1⟩

end Dialogue

namespace Session

/-- What a call that succeeds does to a safe dialogue. -/
theorem safe_of_attempt {session next : Session} (safe : session.dialogue.Safe) {call : Call}
    (went : session.attempt call = .ok next) : next.dialogue.Safe := by
  cases call with
  | choose choice =>
    obtain ⟨taken, took, same⟩ := bind_ok went
    obtain ⟨chosen, chose, rest⟩ := bind_ok took
    cases same
    cases rest
    exact safe.choose chose
  | turn terminal =>
    obtain ⟨taken, took, same⟩ := bind_ok went
    obtain ⟨chosen, ran, rest⟩ := bind_ok took
    cases same
    cases rest
    exact safe.runTurn ran
  | restore header =>
    rw [attempt, restore_eq] at went
    split at went
    · rename_i known
      cases went
      exact safe.moveTo known
    · cases went

theorem safe_after {session : Session} (safe : session.dialogue.Safe) (call : Call) :
    (session.after call).dialogue.Safe := by
  unfold after
  split
  · rename_i next went
    exact safe_of_attempt safe went
  · exact safe

theorem safe_calls {session : Session} (safe : session.dialogue.Safe) (calls : List Call) :
    (calls.foldl after session).dialogue.Safe := by
  induction calls generalizing session with
  | nil => exact safe
  | cons call rest ih => exact ih (safe_after safe call)

theorem choose_ok {session : Session} {choice : Nat} (going : session.isFinished = false)
    (active : session.dialogue.activeBranch = .ok branch) (within : choice < branch.responses.length) :
    ∃ taken, session.choose choice = .ok taken := by
  obtain ⟨chosen, chose⟩ := Dialogue.choose_ok going active within
  exact ⟨session.advance chosen, by rw [choose, chose]; rfl⟩

/-- At a branch with responses a turn fails exactly when its terminal breaks down before it confirms
anything, and then with what the terminal reports. -/
theorem runTurn_error_iff {session : Session} (going : session.isFinished = false)
    (active : session.dialogue.activeBranch = .ok branch) (answered : branch.responses ≠ [])
    (terminal : Terminal) (failure : Failure) :
    session.runTurn terminal = .error failure ↔
      .confirm ∉ terminal.keys ∧ terminal.breakdown.failure = failure := by
  unfold runTurn
  rcases Dialogue.runTurn_cases active answered terminal with ⟨confirms, choice, within, ran⟩ | ⟨none, broken⟩
  · obtain ⟨chosen, chose⟩ := Dialogue.choose_ok going active within
    rw [ran, chose]
    simp [confirms]
  · rw [broken]
    simp [none]

end Session

/-- Whatever calls are made on a session over a strictly compiled dialogue, it is over or at a branch; and
as long as it is not over, every response of the branch can be chosen and only its terminal can fail. -/
theorem strict_play_safe (strict : options.strict = true)
    (opened : Session.ofSource options source = .ok session) (calls : List Session.Call) :
    let reached := calls.foldl Session.after session
    (reached.dialogue.active = exitHeader ∨
      reached.dialogue.active ∈ reached.dialogue.branches.map Branch.header) ∧
    (reached.isFinished = false → ∃ branch, reached.dialogue.activeBranch = .ok branch ∧
      branch.responses ≠ [] ∧
      (∀ choice < branch.responses.length, ∃ taken, reached.choose choice = .ok taken) ∧
      ∀ terminal failure, reached.runTurn terminal = .error failure ↔
        .confirm ∉ terminal.keys ∧ terminal.breakdown.failure = failure) := by
  intro reached
  obtain ⟨dialogue, compiled, same⟩ := bind_ok opened
  cases same
  have safe : reached.dialogue.Safe := Session.safe_calls (Dialogue.safe_of_compile strict compiled) calls
  refine ⟨safe.anchored, ?_⟩
  intro going
  obtain ⟨branch, active, answered⟩ := safe.activeBranch going
  refine ⟨branch, active, answered, ?_, ?_⟩
  · intro choice within
    exact Session.choose_ok going active within
  · intro terminal failure
    exact Session.runTurn_error_iff going active answered terminal failure

/-- Calls of every kind, most of which fail. -/
def gateCalls : List Session.Call :=
  [.choose 7, .restore "moat", .turn ⟨[.up, .down], .listening ⟨.raised "NO_KEY" "closed", none⟩⟩,
    .turn ⟨[.other, .confirm, .up], .drawing ⟨.raised "NO_SCREEN" "closed", none⟩⟩, .restore exitHeader,
    .choose 0, .restore "gate"]

theorem strict_play_safe_at_gate :
    let options := Options.ofNames ["knock"] true
    let session := Session.start gateDialogue
    options.strict = true ∧ Session.ofSource options gateSource = .ok session ∧
      let reached := gateCalls.foldl Session.after session
      (reached.dialogue.active = exitHeader ∨
        reached.dialogue.active ∈ reached.dialogue.branches.map Branch.header) ∧
      (reached.isFinished = false → ∃ branch, reached.dialogue.activeBranch = .ok branch ∧
        branch.responses ≠ [] ∧
        (∀ choice < branch.responses.length, ∃ taken, reached.choose choice = .ok taken) ∧
        ∀ terminal failure, reached.runTurn terminal = .error failure ↔
          .confirm ∉ terminal.keys ∧ terminal.breakdown.failure = failure) := by
  intro options session
  have opened : Session.ofSource options gateSource = .ok session := by
    rw [Session.ofSource, compile_gateSource]
    rfl
  exact ⟨rfl, opened, strict_play_safe rfl opened gateCalls⟩

end Parley
