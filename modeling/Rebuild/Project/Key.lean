import Rebuild.Error

/-!
# Project keys

A project is known by its group and its artifact, whatever its version. Keys are read from texts
`group:artifact`, where a version may follow and is then dropped, and shown in that form.

Reading is strict: white space at the two ends of the text is no part of it, but a coordinate is
never empty and never contains a colon, and there are exactly two coordinates or three. A key made
by hand is not checked, so two different keys made by hand can have the same text.
-/

namespace Rebuild

/-- The identity of a project. -/
structure ProjectKey where
  group : String
  artifact : String
deriving DecidableEq

namespace ProjectKey

/-- The text of a key. -/
def text (key : ProjectKey) : String :=
  key.group ++ ":" ++ key.artifact

/-- Groups decide first, then artifacts; texts are compared by their characters. -/
def order (a b : ProjectKey) : Ordering :=
  (compare a.group b.group).then (compare a.artifact b.artifact)

/-- A key put into ascending keys, unless it is among them. -/
def insertAscending (key : ProjectKey) : List ProjectKey → List ProjectKey
  | [] => [key]
  | first :: rest =>
    match key.order first with
    | .lt => key :: first :: rest
    | .eq => first :: rest
    | .gt => first :: insertAscending key rest

/-- The keys of a list in ascending order, each once. -/
def ascending (keys : List ProjectKey) : List ProjectKey :=
  keys.foldl (fun sorted key => key.insertAscending sorted) []

end ProjectKey

/-- What a text of coordinates says: a key, and a version if there is a third coordinate. -/
structure Coordinates where
  key : ProjectKey
  version : Option String
deriving DecidableEq

namespace Coordinates

/-- The coordinates that a text lists. A failure carries the text as it was given. -/
def parse (text : String) : Except Error Coordinates :=
  let parts := (Text.fields ':' (Text.trim text.toList)).map String.ofList
  if parts.length < 2 ∨ 3 < parts.length then
    .error (.malformedKey text "expected groupId:artifactId[:version]")
  else if parts.any (· = "") then
    .error (.malformedKey text "coordinates must not be empty")
  else
    .ok { key := ⟨parts.getD 0 "", parts.getD 1 ""⟩, version := parts[2]? }

end Coordinates

/-- The key that a text names. A version is allowed and makes no difference. -/
def ProjectKey.parse (text : String) : Except Error ProjectKey :=
  Coordinates.key <$> Coordinates.parse text

end Rebuild
