import Rebuild.Text.Blank

/-!
# Paths

A path is kept as the text it was written as, because reports print that text. What the path means
is read off its components: a root, a leading dot, steps to the parent, and names. Two paths are
equal, and ordered, by their components, so that `a//b/` and `a/./b` are one path in two spellings.
The order puts a directory's contents at the place of the directory's name, which is the order in
which a directory tree is walked.

A file name is never empty and never contains a slash. The type says so, and that is why the path of
a directory entry is longer than the path of its directory: a walk into subdirectories ends.

Names and paths are texts. A system may have names whose bytes are no text, and such a name is put
into words, for patterns and reports, with marks in place of what cannot be read. Nothing here
corresponds to such names, nor to what is lost in their wording.
-/

namespace Rebuild

/-- A name that a directory entry can have, if the name is a text. -/
structure FileName where
  text : String
  ne_empty : text ≠ ""
  slash_notMem : '/' ∉ text.toList
deriving DecidableEq

namespace FileName

/-- A piece of a path as a file name. A dot and two dots are directions, not names. -/
def ofText? (text : String) : Option FileName :=
  if text = "." ∨ text = ".." then none
  else if h : text ≠ "" ∧ '/' ∉ text.toList then some ⟨text, h.1, h.2⟩ else none

end FileName

/-- A path, as written. -/
structure Path where
  text : String
deriving DecidableEq

namespace Path

/-- One step of a path. -/
inductive Component where
  | root
  | here
  | parent
  | name (name : FileName)
deriving DecidableEq

namespace Component

/-- What a piece between two slashes stands for. Empty pieces and dots stand for nothing. -/
def ofPiece? (piece : String) : Option Component :=
  if piece = ".." then some parent else (FileName.ofText? piece).map name

/-- The kind of a component decides first: root, then dot, then parent, then names. -/
def rank : Component → Nat
  | root => 0
  | here => 1
  | parent => 2
  | name _ => 3

/-- Names are compared by their characters, which is the order of their bytes in UTF-8. -/
def order : Component → Component → Ordering
  | name a, name b => compare a.text b.text
  | a, b => compare a.rank b.rank

end Component

/-- The pieces of a path between its slashes. -/
def pieces (path : Path) : List String :=
  Text.splitFields '/' path.text

/-- A path that starts with a slash does not depend on where it is looked up. -/
def isAbsolute (path : Path) : Bool :=
  path.text.toList.head? == some '/'

/-- A path of one or more pieces whose first is a dot. -/
def startsHere (path : Path) : Bool :=
  path.pieces.head? == some "."

/-- The steps of a path. A dot is a step only at the very start. -/
def components (path : Path) : List Component :=
  (if path.isAbsolute then [.root] else if path.startsHere then [.here] else []) ++
    path.pieces.filterMap Component.ofPiece?

/-- Component by component; a path sorts before its extensions. -/
def orderComponents : List Component → List Component → Ordering
  | [], [] => .eq
  | [], _ :: _ => .lt
  | _ :: _, [] => .gt
  | a :: as, b :: bs => (a.order b).then (orderComponents as bs)

/-- The order of paths. -/
def order (a b : Path) : Ordering :=
  orderComponents a.components b.components

/-- The same steps, perhaps spelled differently. -/
def Same (a b : Path) : Prop :=
  a.components = b.components

instance (a b : Path) : Decidable (a.Same b) :=
  inferInstanceAs (Decidable (_ = _))

/-- The second path, read from the first as its starting point. Joining with an empty path leaves a
trailing slash. -/
def join (base path : Path) : Path :=
  if path.isAbsolute || base.text = "" then path
  else if base.text.toList.getLast? = some '/' then ⟨base.text ++ path.text⟩
  else ⟨base.text ++ "/" ++ path.text⟩

/-- The path of an entry of a directory. -/
def child (directory : Path) (name : FileName) : Path :=
  directory.join ⟨name.text⟩

/-- Without the pieces at the end that are no steps. -/
private def dropIdle (pieces : List String) : List String :=
  (pieces.reverse.dropWhile fun piece => piece = "" || piece = ".").reverse

/-- The directory that a path's last step is taken in, in the spelling of the path; the empty path
if there is no such step. -/
def directory (path : Path) : Path :=
  let lead := if path.isAbsolute then "/" else if path.startsHere then "." else ""
  let body := (path.text.drop lead.length).toString
  match dropIdle (Text.splitFields '/' body) with
  | [] => ⟨""⟩
  | steps => ⟨lead ++ "/".intercalate (dropIdle steps.dropLast)⟩

/-- The steps that a path takes after those of another path; none if it does not begin with them. -/
def stepsAfter? (path base : Path) : Option (List Component) :=
  base.components.isPrefixOf? path.components

/-- The names among steps joined by slashes; every other step is left out. -/
def slashedSteps (steps : List Component) : String :=
  "/".intercalate (steps.filterMap fun
    | .name name => some name.text
    | _ => none)

/-- The names of a path joined by slashes. -/
def slashed (path : Path) : String := slashedSteps path.components

theorem name_isAbsolute (name : FileName) : isAbsolute ⟨name.text⟩ = false := by
  have h := name.slash_notMem
  cases hc : name.text.toList with
  | nil => simp [isAbsolute, hc]
  | cons c rest =>
    have hne : c ≠ '/' := fun hslash => h (by simp [hc, hslash])
    simp [isAbsolute, hc, hne]

/-- The path of an entry is longer than the path of its directory. -/
theorem size_lt_child (path : Path) (name : FileName) :
    path.text.utf8ByteSize < (path.child name).text.utf8ByteSize := by
  have hpos : 0 < name.text.utf8ByteSize := by
    have := name.ne_empty
    rcases Nat.eq_zero_or_pos name.text.utf8ByteSize with h | h
    · exact absurd (String.utf8ByteSize_eq_zero_iff.1 h) this
    · exact h
  unfold child join
  simp only [name_isAbsolute, Bool.false_or]
  split
  · rename_i h
    have hempty : path.text = "" := of_decide_eq_true h
    rw [hempty, String.utf8ByteSize_empty]
    exact hpos
  · split
    · simp only [String.utf8ByteSize_append]
      omega
    · simp only [String.utf8ByteSize_append]
      omega

end Path

end Rebuild
