import Rebuild.LastModified
import Rebuild.PathSet
import Rebuild.Sources
import Rebuild.Staleness.Request
import Rebuild.Staleness.Targets

/-!
# Which sources are stale

A source is stale if one of its targets is missing, or older than the source by more than the
request tolerates. Under a policy that does not compare, every source is stale and no time is read.
The roots are taken in turn: each is walked to its end, then its sources are compared, and then the
log says what was found.
-/

namespace Rebuild

namespace StaleRequest

/-- The patterns of a request. -/
def selection (request : StaleRequest) : Except Error Glob.Selection :=
  (Glob.Selection.compile request.includes request.excludes).mapError .badPattern

/-- Whether one of the targets is missing or too old for a source of some time. The first one that
is ends the search. -/
def anyOutdated (tolerance : Duration) (sourceTime : Time) : List Path → Reading Bool
  | [] => return false
  | target :: others => do
    if Time.isNewer (some sourceTime) (← lastModified target) tolerance then return true
    else anyOutdated tolerance sourceTime others

/-- Whether a source is stale. Its own time is read first. -/
def isStale (request : StaleRequest) (mappings : List Mapping) (source : Source) :
    Reading Bool := do
  match ← lastModified source.path with
  | none => Reading.fail (.unreadableTime source.path "source disappeared after it was scanned")
  | some time =>
    anyOutdated request.tolerance time
      (mappings.flatMap (Mapping.targets request.targetDirectory source.relative))

/-- The stale ones of some sources. -/
def staleAmong (request : StaleRequest) (mappings : List Mapping) :
    List Source → Reading (List Source)
  | [] => return []
  | source :: others => do
    let stale ← request.isStale mappings source
    let rest ← staleAmong request mappings others
    return if stale then source :: rest else rest

/-- Writes what was found under a root. -/
def logFound (what : String) (root : Path) (found : List Path) : Reading Unit := do
  if found.isEmpty then Reading.log .debug s!"No {what} found in {root.text}"
  else
    Reading.log .debug s!"Found {found.length} {what} in {root.text}:"
    found.forM fun path => Reading.log .debug s!"  {path.text}"

/-- The stale sources under one root, in the order of the walk. -/
def staleUnder (request : StaleRequest) (selection : Glob.Selection) (root : Path) :
    Reading (List Path) := do
  let sources ← Source.scan selection root
  let stale ← match request.policy.mappings with
    | none => pure sources
    | some mappings => request.staleAmong mappings sources
  let paths := stale.map Source.path
  logFound "stale sources" root paths
  return paths

/-- The stale sources under all roots. -/
def staleSources (request : StaleRequest) : Reading PathSet := do
  let selection ← Reading.ofExcept request.selection
  let found ← request.sourceRoots.mapM (request.staleUnder selection)
  return PathSet.empty.insertAll found.flatten

/-- All sources under all roots, whatever their times. -/
def allSources (request : StaleRequest) : Reading PathSet := do
  let selection ← Reading.ofExcept request.selection
  let found ← request.sourceRoots.mapM fun root => do
    let paths := (← Source.scan selection root).map Source.path
    logFound "sources" root paths
    return paths
  return PathSet.empty.insertAll found.flatten

end StaleRequest

end Rebuild
