import Parley.Dialogue.Basic

namespace Parley

namespace Dialogue

/-- The first branch whose header an earlier one already carries. -/
def repeated? (seen : List String) : List Branch → Option Branch
  | [] => none
  | branch :: rest =>
    if branch.header ∈ seen then some branch else repeated? (branch.header :: seen) rest

def danglingTarget? (headers : List String) (response : Response) : Option String :=
  (response.directives.find? fun directive =>
    directive.command = .goto && directive.argument ∉ headers).map Directive.argument

/-- Repeated headers come first: while one stands, no reference is clear. -/
def referenceFault? (dialogue : Dialogue) : Option ReferenceFault :=
  match repeated? [] dialogue.branches with
  | some branch => some (.duplicate branch.header)
  | none =>
    let headers := dialogue.branches.map Branch.header
    dialogue.branches.findSome? fun branch =>
      branch.responses.findSome? fun response =>
        (danglingTarget? headers response).map fun target =>
          .dangling response.text branch.header target

def checkReferences (dialogue : Dialogue) : Except Failure Unit :=
  match dialogue.referenceFault? with
  | some fault => .error ⟨.reference fault, none⟩
  | none => .ok ()

end Dialogue

end Parley
