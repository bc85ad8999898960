import Parley.Failure
import Parley.Source.Region

/-! The balance of a source: strings close, regions open only where they may, and every closer closes
the innermost region. The first character that cannot be right is the one reported. -/

namespace Parley

/-- The regions open at a place. Each keeps the opener to report if the source ends inside it; a
command list lies in a branch, and the branch was opened first. -/
inductive Nesting
  | outside
  | title (opener : Mark)
  | branch (opener : Mark)
  | commands (branch : Mark)
  deriving DecidableEq, Repr

namespace Nesting

def isOpen : Nesting → Region → Bool
  | title _, .title => true
  | branch _, .branch => true
  | commands _, .branch => true
  | commands _, .commands => true
  | _, _ => false

/-- Titles and branches open at the top, command lists directly in a branch. -/
def enter? (opener : Mark) : Nesting → Region → Option Nesting
  | outside, .title => some (title opener)
  | outside, .branch => some (branch opener)
  | branch outer, .commands => some (commands outer)
  | _, _ => none

def leave? : Nesting → Region → Option Nesting
  | title _, .title => some outside
  | branch _, .branch => some outside
  | commands outer, .commands => some (branch outer)
  | _, _ => none

/-- The opener that was met first among those still open. -/
def outermost? : Nesting → Option Mark
  | outside => none
  | title opener => some opener
  | branch opener => some opener
  | commands outer => some outer

def read (nesting : Nesting) (mark : Mark) : Except SyntaxFault Nesting :=
  match Region.ofOpener? mark.char, Region.ofCloser? mark.char with
  | some region, _ =>
    match nesting.enter? mark region with
    | some inner => .ok inner
    | none =>
      .error (if nesting.isOpen region then .reopened mark.char else .misplaced mark.char)
  | none, some region =>
    match nesting.leave? region with
    | some outer => .ok outer
    | none => .error (.strayCloser mark.char)
  | none, none =>
    if mark.char = ';' && !nesting.isOpen .commands then .error .straySeparator else .ok nesting

end Nesting

/-- How far a source has been read: the regions open around the place, and the quote that opened the
string around it. -/
structure Balance where
  nesting : Nesting
  quote : Option Mark
  deriving DecidableEq, Repr

namespace Balance

def start : Balance := ⟨.outside, none⟩

/-- Inside a string only the closing quote means anything. -/
def read (balance : Balance) (mark : Mark) : Except Failure Balance :=
  if mark.char = '"' then
    .ok { balance with quote := if balance.quote.isSome then none else some mark }
  else if balance.quote.isSome then
    .ok balance
  else
    match balance.nesting.read mark with
    | .ok nesting => .ok { balance with nesting }
    | .error fault => .error ⟨.syntactic fault, some mark⟩

/-- An open string hides whatever stands after it, so it is reported before an open region. -/
def finish (balance : Balance) : Except Failure Unit :=
  match balance.quote, balance.nesting.outermost? with
  | some quote, _ => .error ⟨.syntactic .openString, some quote⟩
  | none, some opener => .error ⟨.syntactic (.unclosed opener.char), some opener⟩
  | none, none => .ok ()

end Balance

namespace Source

def checkBalance (marks : List Mark) : Except Failure Unit := do
  let balance ← marks.foldlM Balance.read Balance.start
  balance.finish

end Source

end Parley
