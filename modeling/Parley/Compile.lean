import Parley.Compile.Builder
import Parley.Dialogue.References
import Parley.Source.Layout

namespace Parley

/-- Normalizes, counts and builds a source. The options are checked first, references last. -/
def compile (options : Options) (source : String) : Except Failure Dialogue := do
  options.check
  let marks ← Source.normalize source.toList
  let counts ← Source.count (Source.text marks)
  let dialogue ← build options counts marks
  if options.strict then dialogue.checkReferences
  return dialogue

end Parley
