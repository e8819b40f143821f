import Rebuild.Reading

/-!
# Walking a directory tree

A walk goes through a directory tree depth first and in the order of names, and shows a visitor what
it comes to: entries, each with what it is once links are followed, and failures. The visitor says
what is to be collected, and may end the walk. If it does not, the walk goes on, also after a failure.

Links to directories are walked like directories. One that leads to a directory which is being walked
already would never end. So a directory that a link leads to is opened, and compared with those on the
way to it, which are opened one after the other, the nearest first.

What a directory holds is read once, when the walk enters it, and whole or not at all; what a link
leads to is read when the walk comes to it.
-/

namespace Rebuild

open FileSystem (Kind Fault)

namespace Walk

/-- Why a walk cannot go on somewhere. -/
inductive Failure where
  | io (path : Option Path) (fault : Fault)
  | loop (link ancestor : Path)

/-- The words of a failure. -/
def Failure.message : Failure → String
  | io (some path) fault => s!"IO error for operation on {path.text}: {fault.message}"
  | io none fault => fault.message
  | loop link ancestor =>
    s!"File system loop found: {link.text} points to an ancestor {ancestor.text}"

/-- What a walk comes to. -/
inductive Item where
  | entry (path : Path) (kind : Kind)
  | failed (failure : Failure)

/-- Fails if a link leads to one of the directories on the way to it, the nearest first. -/
def checkLoop (link : Path) (found : Location) : List Path → Reading (Except Failure Unit)
  | [] => return .ok ()
  | nearest :: others => do
    match ← Reading.look (.handle nearest) with
    | .error fault => return .error (.io none fault)
    | .ok ancestor =>
      if ancestor = found then return .error (.loop link nearest)
      else checkLoop link found others

/-- What an entry is once links are followed. The way holds the directories that lead to the entry,
the nearest first. -/
def follow (way : List Path) (path : Path) : Kind → Reading (Except Failure Kind)
  | .link => do
    match ← Reading.look (.status path) with
    | .error fault => return .error (.io (some path) fault)
    | .ok status =>
      if status.isDirectory then
        match ← Reading.look (.handle path) with
        | .error fault => return .error (.io none fault)
        | .ok found => return (← checkLoop path found way).map fun _ => .directory
      else return .ok status.kind
  | kind => return .ok kind

variable {α : Type}

/-- What a visitor collects at an entry and below it. -/
def go (visit : Item → Reading (List α)) (way : List Path) (path : Path) (kind : Kind) :
    Reading (List α) := do
  match ← follow way path kind with
  | .error failure => visit (.failed failure)
  | .ok .directory =>
    let listed ← Reading.look (.listing path)
    let here ← visit (.entry path .directory)
    match listed with
    | .error fault => return here ++ (← visit (.failed (.io (some path) fault)))
    | .ok entries =>
      -- no file system lists a path that is too long
      if _h : path.text.utf8ByteSize < FileSystem.pathLimit then
        let below ← entries.mapM fun (name, kind) => go visit (path :: way) (path.child name) kind
        return here ++ below.flatten
      else return here ++ (← visit (.failed (.io (some path) .nameTooLong)))
  | .ok kind => visit (.entry path kind)
termination_by FileSystem.pathLimit - path.text.utf8ByteSize
decreasing_by
  have := Path.size_lt_child path name
  omega

/-- What a visitor collects from a root on. -/
def start (visit : Item → Reading (List α)) (root : Path) : Reading (List α) := do
  match ← Reading.look (.kind root) with
  | .error fault => visit (.failed (.io (some root) fault))
  | .ok kind => go visit [] root kind

end Walk

end Rebuild
