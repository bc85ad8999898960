namespace Parley

inductive Key
  | up
  | down
  | confirm
  | other
  deriving DecidableEq, Repr

/-- `index` is the highlighted one of `count` responses. -/
structure Cursor where
  index : Nat
  count : Nat
  deriving DecidableEq, Repr

namespace Cursor

def start (count : Nat) : Cursor := ⟨0, count⟩

/-- Movement stops at both ends. -/
def press (cursor : Cursor) : Key → Cursor
  | .up => { cursor with index := cursor.index - 1 }
  | .down => if cursor.index + 1 < cursor.count then { cursor with index := cursor.index + 1 } else cursor
  | .confirm | .other => cursor

/-- Nothing can be confirmed where there is nothing to choose. -/
def confirmed? (cursor : Cursor) : Key → Option Nat
  | .confirm => if 0 < cursor.count then some cursor.index else none
  | .up | .down | .other => none

end Cursor

end Parley
