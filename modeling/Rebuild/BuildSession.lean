import Rebuild.BuildOrder

/-!
# Building what is missing

A session builds projects on demand. Some candidates may have been built in the meantime, and others
may be in the hands of the build that asks. Both are left out before the rest is ordered, so that
nothing is built twice. Afterwards every candidate should have been resolved; those that were not
are reported together.
-/

namespace Rebuild

/-- Candidates, and the keys that need no building: because it is done, or because it is under way.
-/
structure BuildSession where
  candidates : List Project
  completed : List ProjectKey
  pending : List ProjectKey

namespace BuildSession

/-- The candidates that are left to build. -/
def remaining (session : BuildSession) : List Project :=
  session.candidates.filter fun project =>
    !session.pending.contains project.key && !session.completed.contains project.key

/-- The candidates that are left to build, in order. -/
def plan (session : BuildSession) : Reported (List Project) := do
  let remaining := session.remaining
  let names := ", ".intercalate (remaining.map Project.name)
  Reported.log .debug s!"Remaining build candidates: [{names}]"
  if remaining.isEmpty then
    Reported.log .info "Nothing to build"
    return []
  else
    Reported.log .info s!"Found {remaining.length} build candidates"
    buildOrder remaining

end BuildSession

/-- Fails if any project is left. -/
def ensureResolved (left : List Project) : Except Error Unit :=
  if left.isEmpty then .ok () else .error (.unresolved (left.map Project.name))

end Rebuild
