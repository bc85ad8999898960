namespace Parley

/-- Three commands are built in; every other name belongs to the host that embeds the player. -/
inductive Command
  | goto
  | become
  | exit
  | host (name : String)
  deriving DecidableEq, Repr

namespace Command

def builtin? : String → Option Command
  | "goto" => some goto
  | "become" => some become
  | "exit" => some exit
  | _ => none

def name : Command → String
  | goto => "goto"
  | become => "become"
  | exit => "exit"
  | host name => name

end Command

structure Directive where
  command : Command
  argument : String
  deriving DecidableEq, Repr

end Parley
