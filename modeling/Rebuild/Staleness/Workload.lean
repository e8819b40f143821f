import Rebuild.Staleness.Verdict

/-!
# What to process

If no source is stale, the tool need not run. Otherwise it is given the stale sources, except where
named targets are built from all sources together: there one stale source is enough to process all
of them, and the roots are walked once more to find them.
-/

namespace Rebuild

/-- The stale sources, and the sources to process in ascending order. -/
structure Workload where
  stale : PathSet
  sources : List Path

/-- There is nothing to process. -/
def Workload.isEmpty (work : Workload) : Bool := work.sources.isEmpty

/-- What has to be processed for a request. -/
def StaleRequest.workload (request : StaleRequest) : Reading Workload := do
  let stale ← request.staleSources
  if stale.isEmpty then
    Reading.log .info "Nothing to process - all processor-generated files are up to date"
    return ⟨.empty, []⟩
  else
    let sources ← match request.policy with
      | .explicit .. => PathSet.toList <$> request.allSources
      | _ => pure stale.toList
    let plural := if sources.length = 1 then "" else "s"
    Reading.log .info s!"Processing {sources.length} source file{plural}"
    return ⟨stale, sources⟩

end Rebuild
