import Rebuild.Path

/-!
# Sets of paths

A set lists its paths in ascending order. Two spellings of one path are one member, shown in the
spelling that came first.
-/

namespace Rebuild

/-- Paths in ascending order. -/
structure PathSet where
  toList : List Path
deriving DecidableEq

namespace PathSet

/-- The set without members. -/
def empty : PathSet := ⟨[]⟩

/-- A path put into ascending paths, unless an equal one is among them. -/
def insertAscending (path : Path) : List Path → List Path
  | [] => [path]
  | first :: rest =>
    match path.order first with
    | .lt => path :: first :: rest
    | .eq => first :: rest
    | .gt => first :: insertAscending path rest

/-- The set with a path. -/
def insert (set : PathSet) (path : Path) : PathSet := ⟨insertAscending path set.toList⟩

/-- The set with the paths of a list, put in one after the other. -/
def insertAll (set : PathSet) (paths : List Path) : PathSet := paths.foldl insert set

/-- Whether a path is a member, in whatever spelling. -/
def contains (set : PathSet) (path : Path) : Bool :=
  set.toList.any fun member => decide (member.Same path)

/-- The number of members. -/
def size (set : PathSet) : Nat := set.toList.length

/-- Whether there are no members. -/
def isEmpty (set : PathSet) : Bool := set.toList.isEmpty

end PathSet

end Rebuild
