/-!
# White space and separators

Identifiers are read from hand-written text, so white space around them is dropped. What counts as
white space is the Unicode property `White_Space`, which has twenty-five characters and not only the
six of ASCII: a no-break space copied from a web page must not become part of a name.

Splitting works on lists of characters. A text with `n` separators always has `n + 1` fields, and
some of them may be empty; the readers built on it decide what an empty field means.
-/

namespace Rebuild.Text

/-- The characters with the Unicode property `White_Space`. -/
def isBlank (c : Char) : Bool :=
  let n := c.toNat
  (0x9 ≤ n && n ≤ 0xD) || n == 0x20 || n == 0x85 || n == 0xA0 || n == 0x1680 ||
    (0x2000 ≤ n && n ≤ 0x200A) || n == 0x2028 || n == 0x2029 || n == 0x202F || n == 0x205F ||
    n == 0x3000

/-- A text without the longest tail of characters that satisfy `p`. -/
def dropTailWhile (p : Char → Bool) (text : List Char) : List Char :=
  (text.reverse.dropWhile p).reverse

/-- A text without the white space at its two ends. -/
def trim (text : List Char) : List Char :=
  dropTailWhile isBlank (text.dropWhile isBlank)

/-- The pieces of a text between the occurrences of a separator. -/
def fields (separator : Char) : List Char → List (List Char)
  | [] => [[]]
  | c :: rest =>
    if c = separator then [] :: fields separator rest
    else match fields separator rest with
      | [] => [[c]]
      | first :: others => (c :: first) :: others

/-- The fields of a string. -/
def splitFields (separator : Char) (text : String) : List String :=
  (fields separator text.toList).map String.ofList

/-- The part of a text before a tail that it ends with, if it does. -/
def stripTail? (text tail : List Char) : Option (List Char) :=
  if tail.isSuffixOf text then some (text.take (text.length - tail.length)) else none

theorem fields_ne_nil (separator : Char) (text : List Char) : fields separator text ≠ [] := by
  induction text with
  | nil => simp [fields]
  | cons c rest _ =>
    unfold fields
    split
    · simp
    · split <;> simp

end Rebuild.Text
