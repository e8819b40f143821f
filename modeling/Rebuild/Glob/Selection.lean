import Rebuild.Glob.Matching

/-!
# Which paths are selected

Patterns come in two lists: what is wanted, and what is not wanted after all. A path is selected if
a wanted pattern matches it and no unwanted one does; an empty list of wanted patterns selects
nothing.
-/

namespace Rebuild.Glob

/-- Patterns for what is wanted and patterns for what is not. -/
structure Selection where
  includes : List Pattern
  excludes : List Pattern

namespace Selection

/-- The selection with the given texts as patterns. The first text that is no pattern is reported,
those of the wanted patterns before the others. -/
def compile (includes excludes : List String) : Except Fault Selection := do
  let includes ← includes.mapM Pattern.compile
  let excludes ← excludes.mapM Pattern.compile
  return { includes, excludes }

/-- A path is selected by some wanted pattern and by no unwanted one. -/
def selects (selection : Selection) (path : String) : Bool :=
  selection.includes.any (·.selects path) && !selection.excludes.any (·.selects path)

end Selection

end Rebuild.Glob
