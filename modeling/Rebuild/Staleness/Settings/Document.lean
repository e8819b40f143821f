import Rebuild.Reading
import Rebuild.Staleness.Settings
import Rebuild.Yaml.Decoder

/-!
# Settings in documents

The settings of a build plugin are the fields of one record. All fields may be left out, and a
document without a value leaves out all of them. In a file, relative paths start from the directory
of the file.
-/

namespace Rebuild.Settings

/-- The names of the settings. -/
def fieldNames : List String :=
  ["sourceRoots", "additionalSourceRoots", "outputDirectory", "includes", "excludes", "force",
    "outputFiles", "outputFileEndings", "sourceSuffix", "staleMillis", "strict"]

/-- A path in a document. -/
def pathDecoder (place : Yaml.Place) : Yaml.Decoder Path :=
  Path.mk <$> Yaml.Decoder.text place "path string"

/-- A text in a document. -/
def textDecoder (place : Yaml.Place) : Yaml.Decoder String :=
  Yaml.Decoder.text place "a string"

/-- One of the settings in a document, at a place, beside those that are known. -/
def fieldDecoder (around : Yaml.Place) (settings : Settings) (name : String) (place : Yaml.Place) :
    Yaml.Decoder Settings := do
  match name with
  | "sourceRoots" =>
    return { settings with sourceRoots := ← Yaml.Decoder.list place pathDecoder }
  | "additionalSourceRoots" =>
    return { settings with additionalSourceRoots := ← Yaml.Decoder.list place pathDecoder }
  | "outputDirectory" => return { settings with outputDirectory := ← pathDecoder place }
  | "includes" => return { settings with includes := ← Yaml.Decoder.list place textDecoder }
  | "excludes" => return { settings with excludes := ← Yaml.Decoder.list place textDecoder }
  | "force" => return { settings with force := ← Yaml.Decoder.bool place }
  | "outputFiles" => return { settings with outputFiles := ← Yaml.Decoder.list place textDecoder }
  | "outputFileEndings" =>
    return { settings with outputFileEndings := ← Yaml.Decoder.list place textDecoder }
  | "sourceSuffix" =>
    return { settings with sourceSuffix := ← Yaml.Decoder.optional around (textDecoder place) }
  | "staleMillis" => return { settings with staleMillis := ← Yaml.Decoder.word place }
  | "strict" => return { settings with strict := ← Yaml.Decoder.bool place }
  | _ => return settings

/-- The settings that a document gives. -/
def ofDocument (text : String) : Except Error Settings :=
  (Yaml.decode
    (Yaml.Decoder.record [] "struct StalenessConfig" fieldNames (fieldDecoder []) {})
    text).mapError .badDocument

/-- The request that the settings in a file ask for. -/
def requestOfFile (path : Path) : Reading StaleRequest := do
  match ← Reading.look (.text path) with
  | .ok text =>
    let settings ← Reading.ofExcept (ofDocument text)
    Reading.ofReported (settings.requestFrom path.directory)
  | .error fault => Reading.fail (.unreadableFile fault)

end Rebuild.Settings
