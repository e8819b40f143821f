/-!
# A place in a document

Documents are read from front to back, one character at a time. What a character means can depend on
where it stands: the column decides about nesting, the line and the distance about keys. A cursor is
what is left to read together with its place. Columns are counted in characters, and distances in
the octets of UTF-8.

A line ends with a carriage return, a line feed, both, a next-line character, or one of the two
Unicode separators. The separators stay in a text as they are; the other breaks become line feeds.
-/

namespace Rebuild.Yaml

/-- A space or a tab. -/
def isSpace (c : Char) : Bool := c == ' ' || c == '\t'

/-- A character that ends a line. -/
def isBreak (c : Char) : Bool :=
  c == '\n' || c == '\r' || c.toNat == 0x85 || c.toNat == 0x2028 || c.toNat == 0x2029

/-- A letter or digit of ASCII, an underscore or a hyphen. -/
def isWord (c : Char) : Bool := c.isAlphanum || c == '_' || c == '-'

/-- How many octets characters take in UTF-8. -/
def octets (chars : List Char) : Nat := chars.foldl (fun n c => n + c.utf8Size) 0

/-- What is left to read, and where it starts: how many octets and lines come before, and in which
column. -/
structure Cursor where
  rest : List Char
  offset : Nat
  line : Nat
  column : Nat

namespace Cursor

/-- The next character. -/
def peek? (c : Cursor) : Option Char := c.rest.head?

/-- The character some places further. -/
def peekAt? (c : Cursor) (n : Nat) : Option Char := c.rest[n]?

/-- Whether the next character is this one. -/
def at? (c : Cursor) (char : Char) : Bool := c.peek? == some char

/-- Whether the text ends some places further, or a space or a line end stands there. -/
def gapAt (c : Cursor) (n : Nat) : Bool :=
  match c.peekAt? n with
  | none => true
  | some char => isSpace char || isBreak char

/-- Whether the text ends here, or the line does. -/
def atLineEnd (c : Cursor) : Bool :=
  match c.peek? with
  | none => true
  | some char => isBreak char

/-- Past one character of the line. -/
def skip (c : Cursor) : Cursor :=
  ⟨c.rest.tail, c.offset + octets (c.rest.take 1), c.line, c.column + 1⟩

/-- Past some characters of the line. -/
def skipMany (c : Cursor) (n : Nat) : Cursor :=
  ⟨c.rest.drop n, c.offset + octets (c.rest.take n), c.line, c.column + n⟩

/-- Past the end of the line, with the break as it is kept in a text; where no line ends, nothing is
passed. -/
def takeBreak (c : Cursor) : List Char × Cursor :=
  match c.rest with
  | '\r' :: '\n' :: rest => (['\n'], ⟨rest, c.offset + 2, c.line + 1, 0⟩)
  | char :: rest =>
    if isBreak char then
      (if char.toNat < 0x100 then ['\n'] else [char],
        ⟨rest, c.offset + char.utf8Size, c.line + 1, 0⟩)
    else ([], c)
  | [] => ([], c)

/-- Past all characters of the line that satisfy a condition, with those characters. -/
def takeWhile (p : Char → Bool) (c : Cursor) : List Char × Cursor :=
  let taken := c.rest.takeWhile p
  (taken, ⟨c.rest.dropWhile p, c.offset + octets taken, c.line, c.column + taken.length⟩)

/-- Past spaces and tabs. -/
def skipSpaces (c : Cursor) : Cursor := (c.takeWhile isSpace).2

/-- Past a comment, if one starts here. -/
def skipComment (c : Cursor) : Cursor :=
  if c.at? '#' then (c.takeWhile (!isBreak ·)).2 else c

/-- Past spaces, a comment and the end of the line; nothing if something else stands there. -/
def finishLine? (c : Cursor) : Option Cursor :=
  let c := c.skipSpaces.skipComment
  if c.atLineEnd then some c.takeBreak.2 else none

/-- Whether a line starts here that consists of three such characters, or starts with them and a
space. Such lines separate documents. -/
def atMarker (c : Cursor) (char : Char) : Bool :=
  c.column == 0 && c.rest.take 3 == [char, char, char] && c.gapAt 3

/-- Whether a line that separates documents starts here. -/
def atSeparator (c : Cursor) : Bool := c.atMarker '-' || c.atMarker '.'

theorem length_takeBreak_le (c : Cursor) : c.takeBreak.2.rest.length ≤ c.rest.length := by
  unfold takeBreak
  split
  · simp_all
    omega
  · split <;> simp_all
  · simp_all

theorem length_takeBreak_lt {c : Cursor} {char : Char} (h : c.peek? = some char)
    (hbreak : isBreak char = true) : c.takeBreak.2.rest.length < c.rest.length := by
  unfold takeBreak
  cases hrest : c.rest with
  | nil => simp [peek?, hrest] at h
  | cons first rest =>
    simp only [peek?, hrest, List.head?_cons, Option.some.injEq] at h
    subst h
    split
    · rename_i heq
      simp only [List.cons.injEq] at heq
      simp only [heq.2, List.length_cons]
      omega
    · rename_i heq
      simp only [List.cons.injEq] at heq
      rw [← heq.1, ← heq.2]
      simp [hbreak]
    · rename_i heq
      cases heq

theorem length_takeWhile_le (p : Char → Bool) (c : Cursor) :
    (c.takeWhile p).2.rest.length ≤ c.rest.length :=
  (List.dropWhile_sublist p).length_le

theorem length_takeWhile_lt {p : Char → Bool} {c : Cursor} {char : Char} {rest : List Char}
    (hrest : c.rest = char :: rest) (hp : p char = true) :
    (c.takeWhile p).2.rest.length < c.rest.length := by
  simp only [takeWhile, hrest, List.dropWhile_cons, hp, if_true, List.length_cons]
  exact Nat.lt_succ_of_le (List.dropWhile_sublist p).length_le

theorem length_skip_le (c : Cursor) : c.skip.rest.length ≤ c.rest.length := by
  simp [skip]

theorem length_skipMany_le (c : Cursor) (n : Nat) : (c.skipMany n).rest.length ≤ c.rest.length := by
  simp [skipMany]

theorem length_skipComment_le (c : Cursor) : c.skipComment.rest.length ≤ c.rest.length := by
  unfold skipComment
  split
  · exact c.length_takeWhile_le _
  · exact Nat.le_refl _

end Cursor

end Rebuild.Yaml
