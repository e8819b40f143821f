import Rebuild.Project.Key

/-!
# Projects

A project is one candidate of a build: its key, the version that reports mention, and the keys of
the projects it refers to. It may inherit from a parent, and it may depend on others. References may
lead outside the set of candidates, to projects that are already built.
-/

namespace Rebuild

/-- A candidate of a build. -/
structure Project where
  key : ProjectKey
  version : String
  parent : Option ProjectKey
  dependencies : List ProjectKey
deriving DecidableEq

/-- The full name of a project, with its version. -/
def Project.name (project : Project) : String :=
  project.key.text ++ ":" ++ project.version

/-- Where a key stands among the candidates. -/
def Project.position? (projects : List Project) (key : ProjectKey) : Option Nat :=
  projects.findIdx? (·.key = key)

end Rebuild
