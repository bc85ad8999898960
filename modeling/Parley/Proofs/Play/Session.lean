import Parley.Play.Scene
import Parley.Proofs.Dialogue.Lookup
import Parley.Proofs.Failing

namespace Parley

namespace Session

inductive Call
  | choose (choice : Nat)
  | turn (terminal : Terminal)
  | restore (header : String)

def attempt (session : Session) : Call → Except Failure Session
  | .choose choice => return (← session.choose choice).session
  | .turn terminal => return (← session.runTurn terminal).session
  | .restore header => session.restore header

/-- A call that fails leaves the session as it was. -/
def after (session : Session) (call : Call) : Session :=
  match session.attempt call with
  | .ok next => next
  | .error _ => session

/-- A header can be gone back to if a branch carries it, or if it is that of the end. -/
theorem restore_eq (session : Session) (header : String) :
    session.restore header =
      if header = exitHeader ∨ header ∈ session.dialogue.branches.map Branch.header then
        .ok { session with dialogue := session.dialogue.moveTo header }
      else .error ⟨.play (.unknownBranch session.dialogue.title header), none⟩ := by
  have refused : (header ≠ exitHeader && (session.dialogue.branch? header).isNone) = true ↔
      ¬(header = exitHeader ∨ header ∈ session.dialogue.branches.map Branch.header) := by
    rw [not_or, ← session.dialogue.branch?_eq_none_iff]
    simp
  rw [restore]
  by_cases known : header = exitHeader ∨ header ∈ session.dialogue.branches.map Branch.header
  · rw [if_pos known, if_neg fun missing => refused.mp missing known]
  · rw [if_neg known, if_pos (refused.mpr known)]

/-- A session is over, or at a branch, or at a header that no branch carries. -/
theorem describe_cases (session : Session) (external : Option Directive) :
    (session.isFinished = true ∧
      session.describe external = .ok ⟨session.dialogue.title, external, none⟩) ∨
    (session.isFinished = false ∧
      ∃ branch, session.dialogue.branch? session.dialogue.active = some branch ∧
        session.describe external
          = .ok ⟨session.dialogue.title, external, some (.ofBranch branch)⟩) ∨
    (session.isFinished = false ∧ session.dialogue.branch? session.dialogue.active = none ∧
      session.describe external
        = .error ⟨.play (.lost session.dialogue.active session.dialogue.title), none⟩) := by
  unfold describe
  cases finished : session.isFinished with
  | true => exact .inl ⟨rfl, rfl⟩
  | false =>
    cases found : session.dialogue.branch? session.dialogue.active with
    | some branch =>
      rw [Dialogue.activeBranch_of_branch? found]
      exact .inr (.inl ⟨rfl, branch, rfl, rfl⟩)
    | none =>
      rw [Dialogue.activeBranch_eq_error_iff.mpr ⟨found, rfl⟩]
      exact .inr (.inr ⟨rfl, rfl, rfl⟩)

/-- At a branch, a choice is refused if the branch does not have it, and otherwise moves the dialogue and
does nothing else to it. -/
theorem choose_cases {session : Session} {branch : Branch} (going : session.isFinished = false)
    (found : session.dialogue.branch? session.dialogue.active = some branch) (choice : Nat) :
    (branch.responses.length ≤ choice ∧
      session.choose choice
        = .error ⟨.play (.outOfRange choice branch.header branch.responses.length), none⟩) ∨
    (choice < branch.responses.length ∧
      ∃ taken, session.choose choice = .ok taken ∧
        taken.session.dialogue = session.dialogue.moveTo taken.session.dialogue.active) := by
  unfold choose Dialogue.choose
  rw [isFinished] at going
  rw [going, Dialogue.activeBranch_of_branch? found]
  cases picked : branch.responses[choice]? with
  | none => exact .inl ⟨List.getElem?_eq_none_iff.mp picked, by simp [picked]⟩
  | some response =>
    refine .inr ⟨(List.getElem?_eq_some_iff.mp picked).1, ?_⟩
    simp [picked, advance, Dialogue.moveTo]

end Session

end Parley
