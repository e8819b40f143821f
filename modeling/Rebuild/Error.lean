import Rebuild.FileSystem.Fault
import Rebuild.Glob.Pattern
import Rebuild.Path
import Rebuild.Yaml.Fault

/-!
# Failures

Every way in which the library can fail is one constructor, with the identities and paths that are
needed to mend the input. None of them is retried: the same input gives the same failure. The words
are in one function. A failure that another part reported keeps that report as its cause.
-/

namespace Rebuild

/-- A failure. -/
inductive Error where
  /-- Two candidates have one key. -/
  | duplicateProject (key first second : String)
  /-- A dependency closes a cycle. -/
  | dependencyCycle (dependency project cycle : String)
  /-- A parent closes a cycle. -/
  | parentCycle (parent project cycle : String)
  /-- A text is not a project key. -/
  | malformedKey (text reason : String)
  /-- Settings that exclude each other. -/
  | conflictingPolicy (reason : String)
  /-- A source directory could not be walked to its end. -/
  | scan (root : Path) (reason : String)
  /-- The modification time of a file is not to be had. -/
  | unreadableTime (path : Path) (reason : String)
  /-- A build step did not write the file that shows that it ran. -/
  | checkFileUnchanged (path : Path)
  /-- Projects that are still missing after a build. -/
  | unresolved (names : List String)
  /-- A list of projects that cannot be read. -/
  | badProjectList (reason : String) (hint : Option String)
  /-- A file could not be read. -/
  | unreadableFile (cause : FileSystem.Fault)
  /-- A document that cannot be read. -/
  | badDocument (cause : Yaml.Fault)
  /-- A text is not a pattern. -/
  | badPattern (cause : Glob.Fault)

namespace Error

/-- The report of the part that failed first, where another part failed because of it. -/
def cause? : Error → Option String
  | unreadableFile cause => some cause.message
  | badDocument cause => some cause.message
  | badPattern cause => some cause.message
  | _ => none

/-- The words for a failure. -/
def message : Error → String
  | duplicateProject key first second =>
    s!"Project '{key}' is duplicated in build-candidate set: {first} and {second}"
  | dependencyCycle dependency project cycle =>
    s!"Cycle detected with dependency: {dependency} of project: {project}\n\nCycle: {cycle}"
  | parentCycle parent project cycle =>
    s!"Cycle detected with parent: {parent} of project: {project}\n\nCycle: {cycle}"
  | malformedKey text reason => s!"Invalid unit key '{text}': {reason}"
  | conflictingPolicy reason => s!"Conflicting staleness configuration: {reason}"
  | scan root reason => s!"Error scanning source directory: {root.text}: {reason}"
  | unreadableTime path reason => s!"Cannot read modification time of {path.text}: {reason}"
  | checkFileUnchanged path => s!"Check file: {path.text} not changed."
  | unresolved names =>
    s!"Failed to resolve {names.length} projects:" ++ String.join (names.map ("\n- " ++ ·))
  | badProjectList reason hint =>
    s!"Configuration parsing error: {reason}" ++ (match hint with
      | some hint => "\n  hint: " ++ hint
      | none => "")
  | unreadableFile cause => s!"I/O error: {cause.message}"
  | badDocument cause => s!"YAML parsing error: {cause.message}"
  | badPattern cause => s!"Glob pattern error: {cause.message}"

end Error

end Rebuild
