import Rebuild.Glob.Selection
import Rebuild.Walk

/-!
# Finding sources

The sources under a root are the regular files that the patterns select, by their path below the
root. A walk from the root comes to them. A link to nothing is passed over with a log line, and every
other failure of the walk ends the scan. A root that is no directory has no sources.
-/

namespace Rebuild

/-- A source: where it is, and its path below the root. -/
structure Source where
  path : Path
  relative : String
deriving DecidableEq

namespace Source

/-- The path of a link that leads to nothing, if that is what a failure of a walk is about. -/
def danglingLink? : Walk.Failure → Reading (Option Path)
  | .io (some path) .notFound => do
    match ← Reading.look (.kind path) with
    | .ok .link => return some path
    | _ => return none
  | _ => return none

/-- What a scan takes of what its walk comes to. -/
def take (selection : Glob.Selection) (root : Path) : Walk.Item → Reading (List Source)
  | .failed failure => do
    match ← danglingLink? failure with
    | some path =>
      Reading.log .debug s!"Skipping broken symlink {path.text}"
      return []
    | none => Reading.fail (.scan root failure.message)
  | .entry path .file =>
    match path.stepsAfter? root with
    | none => Reading.fail (.scan root s!"{path.text} is outside the root")
    | some steps =>
      let relative := Path.slashedSteps steps
      return if selection.selects relative then [⟨path, relative⟩] else []
  | .entry .. => return []

/-- The sources under a root, in the order of the walk. -/
def scan (selection : Glob.Selection) (root : Path) : Reading (List Source) := do
  match ← Reading.look (.status root) with
  | .error _ => return []
  | .ok status => if status.isDirectory then Walk.start (take selection root) root else return []

end Source

end Rebuild
