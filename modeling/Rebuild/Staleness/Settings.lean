import Rebuild.Staleness.Request

/-!
# The settings of a build plugin

A build plugin has its own names for what a request needs. Its settings are turned into a policy and
a request; paths in them are relative to a directory that the caller names. Under strict settings it
is an error to name output files and output file endings together.
-/

namespace Rebuild

/-- The settings, with what holds when a setting is not given. -/
structure Settings where
  sourceRoots : List Path := []
  additionalSourceRoots : List Path := []
  outputDirectory : Path := ⟨""⟩
  includes : List String := []
  excludes : List String := []
  force : Bool := false
  outputFiles : List String := []
  outputFileEndings : List String := []
  sourceSuffix : Option String := none
  staleMillis : UInt64 := 0
  strict : Bool := false
deriving DecidableEq

namespace Settings

/-- The policy that the settings ask for. -/
def policy (settings : Settings) : Reported Policy :=
  if settings.strict && !settings.force && !settings.outputFiles.isEmpty
      && !settings.outputFileEndings.isEmpty then
    .failed (.conflictingPolicy "outputFiles and outputFileEndings cannot be combined")
  else
    Policy.select settings.force settings.outputFiles settings.outputFileEndings
      (settings.sourceSuffix.getD defaultSuffix)

/-- The request that the settings ask for, with relative paths read from a directory. -/
def requestFrom (settings : Settings) (base : Path) : Reported StaleRequest := do
  let policy ← settings.policy
  return {
    sourceRoots := (settings.sourceRoots ++ settings.additionalSourceRoots).map base.join
    targetDirectory := base.join settings.outputDirectory
    policy
    includes := if settings.includes.isEmpty then [defaultInclude] else settings.includes
    excludes := settings.excludes
    tolerance := .ofMillis settings.staleMillis }

end Settings

end Rebuild
