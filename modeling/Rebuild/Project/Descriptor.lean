import Rebuild.Project
import Rebuild.Reading
import Rebuild.Yaml.Decoder

/-!
# Lists of projects

The candidates of a build are listed in a document. An entry gives the full name of a project, with
its version, and may give a parent and dependencies. References are keys, and are read with the
document. Full names are read afterwards, one by one, and the first that is wrong is reported.
-/

namespace Rebuild

/-- An entry of a list of projects. -/
structure ProjectDescriptor where
  id : String
  parent : Option ProjectKey := none
  dependencies : List ProjectKey := []
deriving DecidableEq

namespace ProjectKey

/-- A key in a document. What is wrong with its text is reported around it. -/
def decoder (around place : Yaml.Place) : Yaml.Decoder ProjectKey := do
  let text ← Yaml.Decoder.text place "a string"
  match ProjectKey.parse text with
  | .ok key => return key
  | .error error => throw (.unsuitable around (.rejected error.message))

end ProjectKey

namespace ProjectDescriptor

/-- The fields of an entry. -/
def fieldNames : List String := ["id", "parent", "dependencies"]

/-- An entry in a document. Its name must be given. -/
def decoder (place : Yaml.Place) : Yaml.Decoder ProjectDescriptor := do
  let (id, entry) ← Yaml.Decoder.record place "struct UnitDescriptor" fieldNames
    (fun ((id, entry) : Option String × ProjectDescriptor) name place' => do
      match name with
      | "id" => return (some (← Yaml.Decoder.text place' "a string"), entry)
      | "parent" =>
        let parent ← Yaml.Decoder.optional place (ProjectKey.decoder place place')
        return (id, { entry with parent })
      | _ =>
        let dependencies ← Yaml.Decoder.list place' (ProjectKey.decoder place')
        return (id, { entry with dependencies }))
    (none, { id := "" })
  match id with
  | some id => return { entry with id }
  | none => throw (.unsuitable place (.missingField "id"))

/-- The entries of a document. -/
def ofDocument (text : String) : Except Yaml.Fault (List ProjectDescriptor) :=
  Yaml.decode (Yaml.Decoder.list [] decoder) text

/-- The project that an entry describes. -/
def toProject (entry : ProjectDescriptor) : Except Error Project := do
  let coordinates ← Coordinates.parse entry.id
  match coordinates.version with
  | some version =>
    return {
      key := coordinates.key
      version
      parent := entry.parent
      dependencies := entry.dependencies }
  | none =>
    throw (.badProjectList s!"Unit '{entry.id}' has no version"
      (some "Use 'groupId:artifactId:version' for unit ids"))

end ProjectDescriptor

namespace Project

/-- The projects that a document lists. -/
def listOfDocument (text : String) : Except Error (List Project) :=
  match ProjectDescriptor.ofDocument text with
  | .ok entries => entries.mapM ProjectDescriptor.toProject
  | .error fault =>
    .error (.badProjectList fault.message
      (some "Expected a list of entries with 'id', optional 'parent' and 'dependencies'"))

/-- The projects that a file lists. -/
def listOfFile (path : Path) : Reading (List Project) := do
  match ← Reading.look (.text path) with
  | .ok text => Reading.ofExcept (listOfDocument text)
  | .error fault => Reading.fail (.unreadableFile fault)

end Project

end Rebuild
