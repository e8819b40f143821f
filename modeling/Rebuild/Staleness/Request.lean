import Rebuild.Path
import Rebuild.Staleness.Policy
import Rebuild.Time

/-!
# Asking for stale sources

A request names the directories that hold sources, the directory that targets are looked up in, how
they are compared, and which files count as sources. A target may be a little older than its source
without being out of date, if the request tolerates it.
-/

namespace Rebuild

/-- The pattern of sources if nothing else is said. -/
def defaultInclude : String := "**/*.java"

/-- A search for stale sources. -/
structure StaleRequest where
  sourceRoots : List Path
  targetDirectory : Path
  policy : Policy
  includes : List String := [defaultInclude]
  excludes : List String := []
  tolerance : Duration := .zero

end Rebuild
