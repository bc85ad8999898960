import Parley.Play.Choice

namespace Parley

/-- How a player ends: its user leaves, or the game cannot go on. -/
inductive Ending
  | left
  | failed (failure : Failure)
  deriving DecidableEq, Repr

/-- What a player does on an event: where it is then, what it shows, which directives were lost on the
way, and whether it ends there. -/
structure Step (State Shown : Type) where
  state : State
  shown : List Shown
  overwrites : List Overwrite
  ending : Option Ending

namespace Step

variable {State Shown Event : Type}

def stay (state : State) (shown : List Shown) : Step State Shown := ⟨state, shown, [], none⟩

/-- Goes on with a second step unless the first one ended. -/
def andThen (first : Step State Shown) (next : State → Step State Shown) : Step State Shown :=
  match first.ending with
  | some _ => first
  | none =>
    let second := next first.state
    ⟨second.state, first.shown ++ second.shown, first.overwrites ++ second.overwrites, second.ending⟩

/-- Runs through events until one ends the player; those behind it are not looked at. -/
def run (respond : State → Event → Step State Shown) (state : State) :
    List Event → Step State Shown
  | [] => stay state []
  | event :: rest => (respond state event).andThen fun next => run respond next rest

end Step

end Parley
