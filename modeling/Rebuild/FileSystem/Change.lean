import Rebuild.FileSystem

/-!
# Changing a file system

Build steps write files, make and remove directories, set links, times and accesses. A step makes the
directories above its path. A step that cannot be done changes nothing. A directory is dated when an
entry is made in it or taken from it. Whoever takes a step may write where it writes.
-/

namespace Rebuild

namespace FileSystem

/-- A step of a build, as far as it shows in the file system. -/
inductive Change where
  | write (path : Path) (contents : ByteArray) (modified : Time)
  | makeDirectory (path : Path)
  | makeLink (path : Path) (target : String)
  | touch (path : Path) (modified : Time)
  | permit (path : Path) (access : Access)
  | remove (path : Path)

/-- The table with an entry at a location. -/
def put (fs : FileSystem) (location : Location) (entry : Entry) : FileSystem :=
  { fs with entries := (location, entry) :: fs.entries.filter (·.1 ≠ location) }

/-- Dates a directory. -/
def date (fs : FileSystem) (location : Location) : FileSystem :=
  match fs.entry? location with
  | some (.directory _ access) => fs.put location (.directory fs.now access)
  | _ => fs

/-- The table with an entry that was not there, or in place of one that was. -/
def create (fs : FileSystem) (location : Location) (entry : Entry) : FileSystem :=
  if (fs.entry? location).isSome then fs.put location entry
  else (fs.put location entry).date location.tail

/-- Makes the directories that the pieces of a path name, from a location on. -/
def makeDirectories (fs : FileSystem) (here : Location) : List String → Except Fault FileSystem
  | [] => .ok fs
  | piece :: rest => do
    let location ← fs.locateFrom ⟨true, true⟩ linkLimit here [piece]
    match fs.entry? location with
    | some (.directory ..) => fs.makeDirectories location rest
    | some _ => .error .notDirectory
    | none => (fs.create location (.directory fs.now {})).makeDirectories location rest

/-- Makes a directory and those above it. -/
def makePath (fs : FileSystem) (path : Path) : Except Fault FileSystem :=
  if '\x00' ∈ path.text.toList then .error .nulInName
  else fs.makeDirectories (fs.origin path) path.pieces

namespace Change

/-- The file system after a step, if the step can be done. -/
def applied (fs : FileSystem) : Change → Except Fault FileSystem
  | write path contents modified => do
    let fs ← fs.makePath path.directory
    let location ← fs.locate ⟨true, true⟩ path
    match fs.entry? location with
    | some (.directory ..) => .error .isDirectory
    | some (.file _ _ access) => return fs.put location (.file contents modified access)
    | some _ => .error .notFound
    | none => return fs.create location (.file contents modified {})
  | makeDirectory path => fs.makePath path
  | makeLink path target => do
    let fs ← fs.makePath path.directory
    let location ← fs.locate ⟨false, true⟩ path
    match fs.entry? location with
    | some _ => .error (.other "File exists (os error 17)")
    | none =>
      if '\x00' ∈ target.toList then .error .nulInName
      else return fs.create location (.link target)
  | touch path modified => do
    match ← fs.find .target path with
    | (location, .file contents _ access) => return fs.put location (.file contents modified access)
    | (location, .directory _ access) => return fs.put location (.directory modified access)
    | (location, .special _) => return fs.put location (.special modified)
    | (_, .link _) => .error .tooManyLinks
  | permit path access => do
    match ← fs.find .target path with
    | (location, .file contents modified _) => return fs.put location (.file contents modified access)
    | (location, .directory modified _) => return fs.put location (.directory modified access)
    | _ => .error .notFound
  | remove path => do
    match ← fs.locate .itself path with
    | [] => .error .notFound
    | name :: above =>
      if (name :: above).isSuffixOf fs.working then .error .notFound
      else
        let kept := fs.entries.filter fun entry => !(name :: above).isSuffixOf entry.1
        return { fs with entries := kept }.date above

/-- The file system after a step; the same one if the step cannot be done. -/
def apply (fs : FileSystem) (change : Change) : FileSystem :=
  match change.applied fs with
  | .ok fs => fs
  | .error _ => fs

end Change

end FileSystem

end Rebuild
