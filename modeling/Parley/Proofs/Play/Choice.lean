import Parley.Proofs.Play.InPlace

namespace Parley

theorem Overwrite.warning_chain (handed : List Directive) :
    (chain handed).map warning = handed.dropLast.zipWith (fun lost next =>
      s!"external command {lost.command.name} \"{lost.argument}\" replaced by " ++
        s!"{next.command.name} in the same choice") handed.tail := by
  rw [chain, List.map_zipWith]
  rfl

/-- A response of the active branch can always be chosen while the dialogue goes on. All of its directives
take effect, wherever among them the moves stand, and nothing is left of the choices before. -/
theorem choice_effect {dialogue : Dialogue} {branch : Branch} {index : Nat}
    (going : dialogue.isOver = false) (active : dialogue.activeBranch = .ok branch)
    (within : index < branch.responses.length) :
    let response := branch.responses[index]
    let handed := response.handed
    ∃ chosen, dialogue.choose index = .ok chosen ∧
      chosen.dialogue = dialogue.moveTo (response.landing dialogue.active) ∧
      chosen.external = handed.getLast? ∧
      chosen.overwrites.map Overwrite.warning = handed.dropLast.zipWith (fun lost next =>
        s!"external command {lost.command.name} \"{lost.argument}\" replaced by " ++
          s!"{next.command.name} in the same choice") handed.tail ∧
      ∀ turns, (Session.Held.choose index).run ⟨dialogue, turns⟩ =
        .ok ⟨chosen.external, chosen.overwrites⟩ ⟨chosen.dialogue, turns + 1⟩ := by
  intro response handed
  have chose := Dialogue.choose_eq going active (List.getElem?_eq_getElem within)
  refine ⟨_, chose, rfl, rfl, Overwrite.warning_chain handed, ?_⟩
  intro turns
  rw [Session.run_choose, Session.choose, chose]
  rfl

/-- A stall where one response leaves the dialogue, comes back to it, and has three commands for the host. -/
def stall : Branch :=
  ⟨"stall", "What will it be?",
    [⟨"Just looking.", []⟩,
      ⟨"The lamp.", [⟨.become, "friend"⟩, ⟨.exit, ""⟩, ⟨.host "give", "coin"⟩, ⟨.goto, "alley"⟩,
        ⟨.host "take", "lamp"⟩]⟩,
      ⟨"Nothing.", [⟨.exit, ""⟩]⟩]⟩

def bazaar : Dialogue := ⟨"Bazaar", [stall], "stall", indexFrom 0 [stall], rfl⟩

theorem bazaar_activeBranch : bazaar.activeBranch = .ok stall := rfl

theorem choice_effect_bazaar :
    bazaar.isOver = false ∧ bazaar.activeBranch = .ok stall ∧ 1 < stall.responses.length ∧
    ∃ chosen, bazaar.choose 1 = .ok chosen ∧
      chosen.dialogue = bazaar.moveTo "alley" ∧
      chosen.external = some ⟨.host "take", "lamp"⟩ ∧
      chosen.overwrites.map Overwrite.warning =
        ["external command become \"friend\" replaced by give in the same choice",
          "external command give \"coin\" replaced by take in the same choice"] := by
  have going : bazaar.isOver = false := by decide
  have within : 1 < stall.responses.length := by decide
  obtain ⟨chosen, chose, moved, left, logged, -⟩ := choice_effect going bazaar_activeBranch within
  exact ⟨going, bazaar_activeBranch, within, chosen, chose, moved, left, logged⟩

end Parley
