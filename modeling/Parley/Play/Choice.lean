import Parley.Dialogue.Basic

namespace Parley

/-- A directive for the host that a later one of the same choice displaced. -/
structure Overwrite where
  lost : Directive
  winner : Command
  deriving DecidableEq, Repr

namespace Overwrite

def warning (overwrite : Overwrite) : String :=
  s!"external command {overwrite.lost.command.name} \"{overwrite.lost.argument}\" replaced by " ++
    s!"{overwrite.winner.name} in the same choice"

end Overwrite

structure Effect where
  active : String
  external : Option Directive
  overwrites : List Overwrite
  deriving DecidableEq, Repr

namespace Effect

def run (effect : Effect) (directive : Directive) : Effect :=
  match directive.command with
  | .goto => { effect with active := directive.argument }
  | .exit => { effect with active := exitHeader }
  | .become | .host _ =>
    let displaced := effect.external.toList.map fun lost => ⟨lost, directive.command⟩
    { effect with external := some directive, overwrites := effect.overwrites ++ displaced }

end Effect

/-- A dialogue after a choice, and what the choice leaves for the host. -/
structure Chosen where
  dialogue : Dialogue
  external : Option Directive
  overwrites : List Overwrite

namespace Dialogue

/-- Every directive of the response runs, also those that stand after a move. -/
def choose (dialogue : Dialogue) (index : Nat) : Except Failure Chosen :=
  if dialogue.isOver then
    .error ⟨.play (.ended dialogue.title), none⟩
  else do
    let branch ← dialogue.activeBranch
    match branch.responses[index]? with
    | none =>
      .error ⟨.play (.outOfRange index branch.header branch.responses.length), none⟩
    | some response =>
      let effect := response.directives.foldl Effect.run ⟨dialogue.active, none, []⟩
      .ok ⟨dialogue.moveTo effect.active, effect.external, effect.overwrites⟩

end Dialogue

end Parley
