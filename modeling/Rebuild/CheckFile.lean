import Rebuild.LastModified

/-!
# Check files

A build step that is known to write a file is checked by that file: the step counts as done only if
the file is there afterwards and is strictly newer than it was before. The time before is taken by a
snapshot. A step that fails keeps its own failure, and a step whose check file cannot be looked at
beforehand is not run.

A snapshot is also noted in the log, with the time in a form that is meant for those who search for
errors. That line is left out: no result depends on it, and its wording is no part of what a check
file promises.
-/

namespace Rebuild

/-- A file and the time that it had at some moment, if it was there. -/
structure CheckFile where
  path : Path
  before : Option Time

namespace CheckFile

/-- A file with the time that it has now. -/
def snapshot (path : Path) : Reading CheckFile := do
  return ⟨path, ← lastModified path⟩

/-- Whether the file is newer than it was. -/
def hasChanged (check : CheckFile) : Reading Bool := do
  return Time.isNewer (← lastModified check.path) check.before .zero

/-- Fails unless the file is newer than it was. -/
def verify (check : CheckFile) : Reading Unit := do
  if ← check.hasChanged then return ()
  else Reading.fail (.checkFileUnchanged check.path)

end CheckFile

/-- Work that changes a file system, with a memory of its own, and may fail. -/
abbrev BuildStep (σ α : Type) := σ → FileSystem → Except Error α × σ × FileSystem

/-- A step that succeeds only if the check file, if there is one, is newer afterwards. -/
def BuildStep.checked {σ α : Type} (checkFile : Option Path) (step : BuildStep σ α) :
    BuildStep σ α := fun memory fs =>
  match checkFile with
  | none => step memory fs
  | some path =>
    match ((CheckFile.snapshot path).on fs).outcome with
    | .error error => (.error error, memory, fs)
    | .ok check =>
      match step memory fs with
      | (.error error, memory, fs) => (.error error, memory, fs)
      | (.ok value, memory, fs) =>
        match (check.verify.on fs).outcome with
        | .error error => (.error error, memory, fs)
        | .ok _ => (.ok value, memory, fs)

end Rebuild
