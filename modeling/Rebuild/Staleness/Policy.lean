import Rebuild.Reported

/-!
# How staleness is decided

A tool reads sources and writes targets. Either named targets are built from all sources together,
or each source has targets of its own, named after it with other suffixes. If neither is compared,
every source counts as stale.

The settings of a build can ask for several of these at once. Force wins, then named targets, then
suffixes, and without any of them a suffix is assumed. What loses is reported with a warning.
-/

namespace Rebuild

/-- The suffix of a source, and of what is made from it, if nothing else is said. -/
def defaultSuffix : String := ".java"

/-- How sources and targets are compared. -/
inductive Policy where
  /-- Named targets, each built from all sources with the suffix. -/
  | explicit (sourceSuffix : String) (targets : List String)
  /-- For each source with the suffix, one target for each target suffix. -/
  | suffixes (sourceSuffix : String) (targetSuffixes : List String)
  /-- No comparison: every source is stale. -/
  | always
deriving DecidableEq

namespace Policy

/-- The policy that settings ask for. -/
def select (force : Bool) (outputFiles outputFileEndings : List String) (sourceSuffix : String) :
    Reported Policy := do
  if force then
    if !outputFiles.isEmpty || !outputFileEndings.isEmpty then
      Reported.log .warning
        "Not using staleness checking - ignoring outputFiles and outputFileEndings"
    Reported.log .debug "Processing all source files"
    return always
  else if !outputFiles.isEmpty then
    if !outputFileEndings.isEmpty then
      Reported.log .warning
        "Both outputFiles and outputFileEndings specified - using outputFiles"
    Reported.log .debug
      ("Computing stale sources against target files " ++ Text.quoteList outputFiles)
    return explicit sourceSuffix outputFiles
  else
    let targetSuffixes := if outputFileEndings.isEmpty then [defaultSuffix] else outputFileEndings
    Reported.log .debug
      ("Computing stale sources against target file endings " ++ Text.quoteList targetSuffixes)
    return suffixes sourceSuffix targetSuffixes

end Policy

end Rebuild
