import Parley.Compile
import Parley.Play.Turn

namespace Parley

structure Session where
  dialogue : Dialogue
  turns : Nat

structure Taken where
  session : Session
  external : Option Directive
  overwrites : List Overwrite

namespace Session

def start (dialogue : Dialogue) : Session := ⟨dialogue, 0⟩

def isFinished (session : Session) : Bool := session.dialogue.isOver

/-- Only a choice that was taken counts as a turn. -/
def advance (session : Session) (chosen : Chosen) : Taken :=
  ⟨⟨chosen.dialogue, session.turns + 1⟩, chosen.external, chosen.overwrites⟩

def choose (session : Session) (index : Nat) : Except Failure Taken := do
  return session.advance (← session.dialogue.choose index)

def runTurn (session : Session) (terminal : Terminal) : Except Failure Taken := do
  return session.advance (← session.dialogue.runTurn terminal)

/-- Moves to a header saved earlier. The end of the dialogue can be saved too. -/
def restore (session : Session) (header : String) : Except Failure Session :=
  if header ≠ exitHeader && (session.dialogue.branch? header).isNone then
    .error ⟨.play (.unknownBranch session.dialogue.title header), none⟩
  else
    .ok { session with dialogue := session.dialogue.moveTo header }

def ofSource (options : Options) (source : String) : Except Failure Session := do
  return start (← compile options source)

/-- Compiles the source again and goes on at a header saved earlier. -/
def resume (options : Options) (source header : String) : Except Failure Session := do
  (← ofSource options source).restore header

end Session

end Parley
