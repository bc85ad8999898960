import Parley.Dialogue.Command
import Parley.Failure
import Parley.Source.Region
import Parley.Text.Blank

namespace Parley

def enterName (name : String) : List String → List String
  | [] => [name]
  | first :: rest =>
    if name < first then name :: first :: rest
    else if first < name then first :: enterName name rest
    else first :: rest

theorem mem_enterName {name other : String} {names : List String} :
    other ∈ enterName name names ↔ other = name ∨ other ∈ names := by
  induction names with
  | nil => simp [enterName]
  | cons first rest ih =>
    unfold enterName
    split
    · simp
    · split
      · simp [ih]; grind
      · rename_i above below
        have same : name = first := String.le_antisymm (String.not_lt.mp below) (String.not_lt.mp above)
        subst same; simp

theorem pairwise_enterName {name : String} {names : List String}
    (ordered : names.Pairwise (· < ·)) : (enterName name names).Pairwise (· < ·) := by
  induction names with
  | nil => simp [enterName]
  | cons first rest ih =>
    obtain ⟨least, later⟩ := List.pairwise_cons.mp ordered
    unfold enterName
    split
    · rename_i below
      refine List.pairwise_cons.mpr ⟨?_, ordered⟩
      intro other member
      rcases List.mem_cons.mp member with rfl | member
      · exact below
      · exact String.lt_trans below (least other member)
    · split
      · rename_i above
        refine List.pairwise_cons.mpr ⟨?_, ih later⟩
        intro other member
        rcases mem_enterName.mp member with rfl | member
        · exact above
        · exact least other member
      · exact ordered

def orderNames : List String → List String
  | [] => []
  | name :: rest => enterName name (orderNames rest)

theorem pairwise_orderNames (names : List String) : (orderNames names).Pairwise (· < ·) := by
  induction names with
  | nil => exact List.Pairwise.nil
  | cons name rest ih => exact pairwise_enterName ih

theorem mem_orderNames {name : String} {names : List String} : name ∈ orderNames names ↔ name ∈ names := by
  induction names with
  | nil => rfl
  | cons first rest ih => rw [orderNames, mem_enterName, ih, List.mem_cons]

/-- Host commands form a set, so two lists that name the same commands give the same options. -/
structure Options where
  hostCommands : List String
  strict : Bool
  ordered : hostCommands.Pairwise (· < ·)
  deriving DecidableEq

namespace Options

def ofNames (names : List String) (strict : Bool) : Options :=
  ⟨orderNames names, strict, pairwise_orderNames names⟩

/-- A host command has to be readable back from a command list, and may not hide a built-in one. -/
def nameFault? (name : String) : Option NameFault :=
  if (Command.builtin? name).isSome then some (.shadowing name)
  else if name.isEmpty || name.toList.any (fun c => Text.isBlank c || isDelimiter c) then
    some (.unwritable name)
  else none

/-- The first faulty name, in ascending order, is the one reported. -/
def check (options : Options) : Except Failure Unit :=
  match options.hostCommands.findSome? nameFault? with
  | some fault => .error ⟨.name fault, none⟩
  | none => .ok ()

theorem check_ok_iff (options : Options) :
    options.check = .ok () ↔ ∀ name ∈ options.hostCommands, nameFault? name = none := by
  rw [← List.findSome?_eq_none_iff, check]
  cases options.hostCommands.findSome? nameFault? <;> simp

def command? (options : Options) (name : String) : Option Command :=
  match Command.builtin? name with
  | some command => some command
  | none => if name ∈ options.hostCommands then some (.host name) else none

end Options

end Parley
