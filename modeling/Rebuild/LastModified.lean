import Rebuild.Reading

/-!
# When a file was last modified

A file that is not there has no modification time, and that is an answer like any other. A time that
cannot be had for another reason is a failure.
-/

namespace Rebuild

/-- The modification time of what a path leads to; none if it leads to nothing. -/
def lastModified (path : Path) : Reading (Option Time) := do
  match ← Reading.look (.status path) with
  | .ok status => return some status.modified
  | .error .notFound => return none
  | .error fault => Reading.fail (.unreadableTime path fault.message)

end Rebuild
