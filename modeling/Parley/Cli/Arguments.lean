namespace Parley.Cli

structure Compiling where
  source : String
  hostCommands : List String
  strict : Bool
  deriving DecidableEq, Repr

inductive Invocation
  | start (compiling : Compiling) (saveTo : String)
  | choose (saveFrom : String) (choice : Nat) (saveTo : String)
  | play (compiling : Compiling) (saveFile : Option String)
  | check (compiling : Compiling) (json : Bool)
  deriving DecidableEq, Repr

structure Given where
  name : String
  value : Option String
  deriving DecidableEq, Repr

/-- A value in an argument of its own may not look like an option; a single dash does not. -/
def isValue (argument : String) : Bool := argument = "-" || argument.toList.head? ≠ some '-'

/-- The name of a long option and what an equals sign attaches to it. -/
def splitOption? (argument : String) : Option (String × Option String) :=
  match argument.toList with
  | '-' :: '-' :: rest =>
    let name := rest.takeWhile (· ≠ '=')
    if name.length < rest.length then
      some (String.ofList name, some (String.ofList (rest.drop (name.length + 1))))
    else
      some (String.ofList name, none)
  | _ => none

def readOptions (valued flags : List String) : List String → Option (List Given)
  | [] => some []
  | ["--"] => some []
  | argument :: rest =>
    match splitOption? argument with
    | none => none
    | some (name, attached) =>
      if name ∈ flags then
        if attached.isSome then none else (readOptions valued flags rest).map (⟨name, none⟩ :: ·)
      else if name ∈ valued then
        match attached with
        | some value => (readOptions valued flags rest).map (⟨name, some value⟩ :: ·)
        | none =>
          match rest with
          | value :: later =>
            if isValue value then (readOptions valued flags later).map (⟨name, some value⟩ :: ·)
            else none
          | [] => none
      else none

def valuesOf (given : List Given) (name : String) : List String :=
  (given.filter (·.name = name)).filterMap Given.value

/-- The value of an option that may be left out; the outer `none` says that it was repeated. -/
def atMostOnce? (given : List Given) (name : String) : Option (Option String) :=
  match valuesOf given name with
  | [] => some none
  | [value] => some (some value)
  | _ => none

def once? (given : List Given) (name : String) : Option String :=
  match valuesOf given name with
  | [value] => some value
  | _ => none

def flag? (given : List Given) (name : String) : Option Bool :=
  match given.countP (·.name = name) with
  | 0 => some false
  | 1 => some true
  | _ => none

/-- A number of 64 bits, with an optional plus sign. -/
def number? (text : String) : Option Nat :=
  let digits := match text.toList with
    | '+' :: rest => rest
    | plain => plain
  if digits ≠ [] && digits.all Char.isDigit then
    let value := digits.foldl (fun value digit => value * 10 + (digit.toNat - '0'.toNat)) 0
    if value < UInt64.size then some value else none
  else none

def compiling? (given : List Given) : Option Compiling := do
  return ⟨← once? given "source", valuesOf given "host-command", ← flag? given "strict"⟩

def Invocation.parse? : List String → Option Invocation
  | "agent" :: "start" :: rest => do
    let given ← readOptions ["source", "host-command", "state-out"] ["strict"] rest
    return .start (← compiling? given) (← once? given "state-out")
  | "agent" :: "choose" :: rest => do
    let given ← readOptions ["state-in", "choice", "state-out"] [] rest
    return .choose (← once? given "state-in") (← number? (← once? given "choice"))
      (← once? given "state-out")
  | "tui" :: rest => do
    let given ← readOptions ["source", "host-command", "state-file"] ["strict"] rest
    return .play (← compiling? given) (← atMostOnce? given "state-file")
  | "check" :: rest => do
    let given ← readOptions ["source", "host-command"] ["strict", "json"] rest
    return .check (← compiling? given) (← flag? given "json")
  | _ => none

end Parley.Cli
