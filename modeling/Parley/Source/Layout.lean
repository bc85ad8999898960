import Parley.Source.Balance
import Parley.Text.Blank

/-! Layout: the blanks of a source that carry no meaning. Blanks count inside strings, titles and
command lists; everywhere else they only arrange the page. -/

namespace Parley

/-- What decides whether a blank counts: the string around it, or the last title or command list that
opened and has not met its own closer. -/
structure Layout where
  quoted : Bool
  region : Option Region
  deriving DecidableEq, Repr

namespace Layout

def start : Layout := ⟨false, none⟩

def keeps (layout : Layout) (c : Char) : Bool :=
  layout.quoted || layout.region.isSome || !Text.isBlank c

/-- A closer only ends the region it belongs to, and an opener replaces whatever was open. -/
def after (layout : Layout) (c : Char) : Layout :=
  if c = '"' then
    { layout with quoted := !layout.quoted }
  else if layout.quoted then
    layout
  else
    match c with
    | '[' => { layout with region := some .title }
    | '(' => { layout with region := some .commands }
    | ']' => if layout.region = some .title then { layout with region := none } else layout
    | ')' => if layout.region = some .commands then { layout with region := none } else layout
    | _ => layout

def stripFrom (layout : Layout) : List Mark → List Mark
  | [] => []
  | mark :: rest =>
    if layout.keeps mark.char then mark :: stripFrom (layout.after mark.char) rest
    else stripFrom (layout.after mark.char) rest

end Layout

namespace Source

/-- Drops the layout of a source, balanced or not. What is left keeps its places. -/
def strip (text : List Char) : List Mark := Layout.start.stripFrom (locate text)

/-- The text that the later stages read: a balanced source without its layout. -/
def normalize (text : List Char) : Except Failure (List Mark) := do
  checkBalance (locate text)
  return strip text

end Source

end Parley
