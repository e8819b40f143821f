import Rebuild.FileSystem.Fault
import Rebuild.Path
import Rebuild.Time

/-!
# File systems

A file system is a table of entries below a root, seen by a process that stands in one of its
directories. An entry has a location, the list of names that lead to it with the innermost name
first, so that the parent of a location is its tail; the root has no names, and is its own parent.
An entry is a file with its bytes, a directory, a symbolic link, or something special that is none of
these, such as a pipe, a socket or a device. All but links have a time, and files and directories
grant the process an access or withhold it.

A path is looked up piece by piece, from the root or from the directory of the process. What a piece
is looked up in must be a directory that lets the process look, and what stands before a slash must
be a directory, too. A link in the middle of a path is followed, and so is one at the end unless the
link itself is asked for; forty links in one look-up are allowed, so that links that lead to
themselves are found out.
-/

namespace Rebuild

/-- The names that lead to an entry from the root, the innermost first. -/
abbrev Location := List FileName

namespace FileSystem

/-- What the process may do with a file or a directory. -/
structure Access where
  /-- Its bytes, or the names in it, may be read. -/
  read : Bool := true
  /-- What is in it may be looked up, if it is a directory. -/
  search : Bool := true
deriving DecidableEq

/-- What stands at a location. -/
inductive Entry where
  | file (contents : ByteArray) (modified : Time) (access : Access)
  | directory (modified : Time) (access : Access)
  | link (target : String)
  | special (modified : Time)

/-- The kind of an entry. -/
inductive Kind where
  | file
  | directory
  | link
  | special
deriving DecidableEq

/-- The kind of an entry. -/
def Entry.kind : Entry → Kind
  | file .. => .file
  | directory .. => .directory
  | link .. => .link
  | special .. => .special

/-- Why an entry cannot be opened to be read; none if it can. -/
def Entry.refusal? : Entry → Option Fault
  | file _ _ access => if access.read then none else some .denied
  | directory _ access => if access.read then none else some .denied
  | special _ => some (.other "No such device or address (os error 6)")
  | link _ => some .tooManyLinks

/-- What is known of what a path leads to. Two paths lead to one entry exactly when the locations
are equal. -/
structure Status where
  kind : Kind
  modified : Time
  location : Location
deriving DecidableEq

/-- A path leads to a directory. -/
def Status.isDirectory (status : Status) : Bool := status.kind == .directory

/-- A path leads to a regular file. -/
def Status.isFile (status : Status) : Bool := status.kind == .file

/-- A path of this many bytes or more is refused. -/
def pathLimit : Nat := 4096

/-- A name of more bytes than this is refused. -/
def nameLimit : Nat := 255

/-- How many links one look-up may follow. -/
def linkLimit : Nat := 40

end FileSystem

/-- A table of entries, and the location where the process stands. Directories that no one dates
have the time `now`. -/
structure FileSystem where
  entries : List (Location × FileSystem.Entry)
  working : Location
  now : Time

namespace FileSystem

/-- The file system that has nothing but an empty directory, in which the process stands. -/
def empty (now : Time) : FileSystem :=
  let working : Location := [⟨"work", by decide, by decide⟩]
  ⟨[(working, .directory now {})], working, now⟩

/-- The entry at a location. The root is always there. -/
def entry? (fs : FileSystem) (location : Location) : Option Entry :=
  match fs.entries.lookup location with
  | some entry => some entry
  | none => if location = [] then some (.directory fs.now {}) else none

/-- How the last piece of a path is treated. -/
structure LookUp where
  /-- A link at the end is followed. -/
  follow : Bool
  /-- It is no failure if nothing has the last name yet. -/
  mayBeNew : Bool

/-- Looks for what exists, and follows a link at the end. -/
def LookUp.target : LookUp := ⟨true, false⟩

/-- Looks for what exists, and stops at a link at the end. -/
def LookUp.itself : LookUp := ⟨false, false⟩

/-- Why nothing can be looked up at a location; none if it can. -/
def barred? (fs : FileSystem) (here : Location) : Option Fault :=
  match fs.entry? here with
  | some (.directory _ access) => if access.search then none else some .denied
  | some _ => some .notDirectory
  | none => some .notFound

/-- Looks up the pieces of a path from a location. Where a link is to be followed, `goOn` looks up
what it says, and then the pieces that are left. -/
def locateBy (fs : FileSystem) (how : LookUp)
    (goOn : Location → List String → Except Fault Location) :
    Location → List String → Except Fault Location
  | here, [] => .ok here
  | here, piece :: rest =>
    if piece = "" then fs.locateBy how goOn here rest
    else match fs.barred? here with
    | some fault => .error fault
    | none =>
      if piece = "." then fs.locateBy how goOn here rest
      else if piece = ".." then fs.locateBy how goOn here.tail rest
      else if nameLimit < piece.utf8ByteSize then .error .nameTooLong
      else match FileName.ofText? piece with
      | none => .error .notFound
      | some name =>
        match fs.entry? (name :: here) with
        | some (.directory ..) => fs.locateBy how goOn (name :: here) rest
        | some (.link target) =>
          if rest = [] ∧ ¬how.follow then .ok (name :: here)
          else goOn (if (Path.mk target).isAbsolute then [] else here)
            ((Path.mk target).pieces ++ rest)
        | some _ => if rest = [] then .ok (name :: here) else .error .notDirectory
        | none => if rest = [] ∧ how.mayBeNew then .ok (name :: here) else .error .notFound

/-- Looks up the pieces of a path from a location, with so many links left to follow. -/
def locateFrom (fs : FileSystem) (how : LookUp) :
    Nat → Location → List String → Except Fault Location
  | 0 => fs.locateBy how fun _ _ => .error .tooManyLinks
  | links + 1 => fs.locateBy how (fs.locateFrom how links)

/-- Where the look-up of a path begins: at the root, or where the process stands. -/
def origin (fs : FileSystem) (path : Path) : Location :=
  if path.isAbsolute then [] else fs.working

/-- Looks up a path. -/
def locate (fs : FileSystem) (how : LookUp) (path : Path) : Except Fault Location :=
  if '\x00' ∈ path.text.toList then .error .nulInName
  else if path.text = "" then .error .notFound
  else if pathLimit ≤ path.text.utf8ByteSize then .error .nameTooLong
  else fs.locateFrom how linkLimit (fs.origin path) path.pieces

/-- The entry that a path leads to, and its location. -/
def find (fs : FileSystem) (how : LookUp) (path : Path) : Except Fault (Location × Entry) := do
  let location ← fs.locate how path
  match fs.entry? location with
  | some entry => .ok (location, entry)
  | none => .error .notFound

/-- What is known of what a path leads to. -/
def status (fs : FileSystem) (path : Path) : Except Fault Status := do
  match ← fs.find .target path with
  | (location, .file _ modified _) => .ok ⟨.file, modified, location⟩
  | (location, .directory modified _) => .ok ⟨.directory, modified, location⟩
  | (location, .special modified) => .ok ⟨.special, modified, location⟩
  | (_, .link _) => .error .tooManyLinks

/-- The kind of the entry that a path names, which may be a link. -/
def kind (fs : FileSystem) (path : Path) : Except Fault Kind :=
  (·.2.kind) <$> fs.find .itself path

/-- The entry that a path leads to, opened to be read, and its location. -/
def opened (fs : FileSystem) (path : Path) : Except Fault (Location × Entry) := do
  let found ← fs.find .target path
  match found.2.refusal? with
  | some fault => .error fault
  | none => .ok found

/-- What a path leads to, told by its location once it is opened. -/
def handle (fs : FileSystem) (path : Path) : Except Fault Location :=
  (·.1) <$> fs.opened path

/-- An entry of a directory put into those with lesser names, unless its name is taken. -/
def insertByName (entry : FileName × Kind) : List (FileName × Kind) → List (FileName × Kind)
  | [] => [entry]
  | first :: rest =>
    match compare entry.1.text first.1.text with
    | .lt => entry :: first :: rest
    | .eq => first :: rest
    | .gt => first :: insertByName entry rest

/-- The entries of a directory in the order of their names. -/
def entriesOf (fs : FileSystem) (location : Location) : List (FileName × Kind) :=
  fs.entries.foldl (fun sorted (place, _) =>
    match place with
    | [] => sorted
    | name :: above =>
      if above = location then
        match fs.entry? place with
        | some entry => insertByName (name, entry.kind) sorted
        | none => sorted
      else sorted) []

/-- The names in a directory and the kinds of what they name, in the order of the names. -/
def listing (fs : FileSystem) (path : Path) : Except Fault (List (FileName × Kind)) := do
  match ← fs.find .target path with
  | (location, .directory _ access) =>
    if access.read then .ok (fs.entriesOf location) else .error .denied
  | _ => .error .notDirectory

/-- The text of a file. -/
def text (fs : FileSystem) (path : Path) : Except Fault String := do
  match ← fs.opened path with
  | (_, .file contents _ _) =>
    match String.fromUTF8? contents with
    | some text => .ok text
    | none => .error .notText
  | _ => .error .isDirectory

end FileSystem

end Rebuild
