import Rebuild.Path
import Rebuild.Staleness.Policy

/-!
# The targets of a source

A mapping says which files are made from a source, given where targets are kept. A source is named
by its path below its source root, with slashes. A source without the suffix of the mapping has no
targets, and what has no targets is never out of date.
-/

namespace Rebuild

/-- A rule for the targets of a source. -/
inductive Mapping where
  /-- The source's own name with each of the target suffixes in place of its suffix. -/
  | suffix (sourceSuffix : String) (targetSuffixes : List String)
  /-- One file for all sources. -/
  | single (sourceSuffix : String) (target : String)
deriving DecidableEq

/-- The targets of a source in a directory. -/
def Mapping.targets (directory : Path) (source : String) : Mapping → List Path
  | suffix sourceSuffix targetSuffixes =>
    match Text.stripTail? source.toList sourceSuffix.toList with
    | some base => targetSuffixes.map fun tail => directory.join ⟨String.ofList base ++ tail⟩
    | none => []
  | single sourceSuffix target =>
    if sourceSuffix.toList.isSuffixOf source.toList then [directory.join ⟨target⟩] else []

/-- The mappings that a policy compares by; none if it does not compare. -/
def Policy.mappings : Policy → Option (List Mapping)
  | explicit sourceSuffix targets => some (targets.map (.single sourceSuffix))
  | suffixes sourceSuffix targetSuffixes => some [.suffix sourceSuffix targetSuffixes]
  | always => none

end Rebuild
