import Parley.Failure

namespace Parley

/-- A table that has to be filled to a size counted in advance, last item first. -/
structure Slots (α : Type) where
  part : Part
  capacity : Nat
  items : List α
  deriving DecidableEq, Repr

namespace Slots

def sized (part : Part) (capacity : Nat) : Slots α := ⟨part, capacity, []⟩

def remaining (slots : Slots α) : Nat := slots.capacity - slots.items.length

def push (slots : Slots α) (item : α) : Except Failure (Slots α) :=
  if slots.items.length = slots.capacity then
    .error ⟨.draft (.overfull slots.part slots.capacity), none⟩
  else
    .ok { slots with items := item :: slots.items }

def finish (slots : Slots α) : Except Failure (List α) :=
  if slots.items.length ≠ slots.capacity then
    .error ⟨.draft (.underfull slots.part slots.capacity slots.items.length), none⟩
  else
    .ok slots.items.reverse

end Slots

end Parley
