/-!
# What can be read of a text

Not every character may stand in a document: most controls and the noncharacters at the end of the
basic plane may not. A text is taken in blocks of 16384 octets, which do not split characters. A
block with a character that is not allowed cannot be read at all; the blocks before it can.
-/

namespace Rebuild.Yaml

/-- A character that a document may contain. -/
def isAllowed (c : Char) : Bool :=
  let n := c.toNat
  n == 0x9 || n == 0xA || n == 0xD || (0x20 ≤ n && n ≤ 0x7E) || n == 0x85 ||
    (0xA0 ≤ n && n ≤ 0xD7FF) || (0xE000 ≤ n && n ≤ 0xFFFD) || 0x10000 ≤ n

/-- The greatest number of octets in a block. -/
def blockLimit : Nat := 16384

/-- The number of characters before the block that the last one of some characters belongs to. -/
def lastBlockStart (chars : List Char) : Nat :=
  let (start, _, _) := chars.foldl (fun (start, index, used) c =>
    if used + c.utf8Size ≤ blockLimit then (start, index + 1, used + c.utf8Size)
    else (index, index + 1, c.utf8Size)) (0, 0, 0)
  start

/-- The characters before the first block that cannot be read. -/
def readable (text : List Char) : List Char :=
  match text.findIdx? (!isAllowed ·) with
  | none => text
  | some index => text.take (lastBlockStart (text.take (index + 1)))

end Rebuild.Yaml
