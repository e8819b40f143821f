import Rebuild.Yaml.Token
import Rebuild.Yaml.Token.Quoted

/-!
# Names, tags and directives

An anchor names a value and an alias repeats a named one. A tag says what a value is: in full
between angles, or by a handle, which a directive at the head of the document replaces by the root
of a name. Tags are written with the characters of addresses, in which a percent sign and two
hexadecimal digits stand for an octet of a character.
-/

namespace Rebuild.Yaml

/-- The name of an anchor or alias. Punctuation that may stand directly after it is not part of it.
-/
def takeName? (c : Cursor) : Option (String × Cursor) :=
  let (name, next) := c.takeWhile isWord
  let ended := next.gapAt 0 ||
    next.peek?.any fun char => "?:,]\x7d%@`".toList.contains char
  if !name.isEmpty && ended then some (String.ofList name, next) else none

/-- The octet that a percent sign and two hexadecimal digits write. -/
def octet? : List Char → Option UInt8
  | '%' :: high :: low :: _ => (hexNumber? [high, low]).map UInt8.ofNat
  | _ => none

/-- How many octets follow the first octet of a character. -/
def furtherOctets? (octet : UInt8) : Option Nat :=
  if octet < 0x80 then some 0
  else if octet &&& 0xE0 == 0xC0 then some 1
  else if octet &&& 0xF0 == 0xE0 then some 2
  else if octet &&& 0xF8 == 0xF0 then some 3
  else none

/-- A character that is written in octets, and how many octets followed the first one. Octets of the
right shape that are no character stand for the replacement character: no known tag contains it. -/
def octetsChar? (written : List Char) : Option (List Char × Nat) := do
  let first ← octet? written
  let more ← furtherOctets? first
  let further ← (List.range more).mapM fun i => octet? (written.drop (3 * (i + 1)))
  if further.all fun octet => octet &&& 0xC0 == 0x80 then
    match String.fromUTF8? ⟨(first :: further).toArray⟩ with
    | some text => some (text.toList, more)
    | none => some (['\ufffd'], more)
  else none

/-- Whether a character may stand in an address as it is. Within angles more punctuation is allowed.
-/
def isAddressChar (angled : Bool) (c : Char) : Bool :=
  isWord c || ";/?:@&=+$.%!~*\x27()".toList.contains c ||
    (angled && (c == ',' || c == '[' || c == ']'))

/-- An address, as far as it goes. -/
def takeAddress (angled : Bool) (c : Cursor) : Option (List Char × Cursor) :=
  match _hrest : c.rest with
  | [] => some ([], c)
  | char :: _ =>
    if char == '%' then
      match octetsChar? c.rest with
      | none => none
      | some (chars, more) =>
        (takeAddress angled (c.skipMany (3 * more + 3))).map fun (address, last) =>
          (chars ++ address, last)
    else if isAddressChar angled char then
      (takeAddress angled c.skip).map fun (address, last) => (char :: address, last)
    else some ([], c)
termination_by c.rest.length
decreasing_by
  · simp only [Cursor.skipMany, List.length_drop, _hrest, List.length_cons]
    omega
  · simp [Cursor.skip, _hrest]

/-- An address that is not empty. -/
def takeSomeAddress? (angled : Bool) (c : Cursor) : Option (List Char × Cursor) := do
  let (address, next) ← takeAddress angled c
  if address.isEmpty then none else some (address, next)

/-- An exclamation mark with a word, and with the mark that closes it if there is one. -/
def takeHandle? (c : Cursor) : Option (List Char × Cursor) :=
  if c.at? '!' then
    let (word, next) := c.skip.takeWhile isWord
    if next.at? '!' then some ('!' :: word ++ ['!'], next.skip) else some ('!' :: word, next)
  else none

/-- Whether a handle is closed by a second mark. -/
def isClosedHandle (handle : List Char) : Bool :=
  handle.length > 1 && handle.getLast? == some '!'

/-- A name up to its first NUL character. -/
def nameOf (chars : List Char) : String := String.ofList (chars.takeWhile (· != '\x00'))

/-- A tag, and the cursor after it. A tag without a closed handle belongs to the handle of one mark,
and the mark alone is a full name. Within brackets a comma may follow. -/
def takeTag? (inFlow : Bool) (c : Cursor) : Option (Token × Cursor) := do
  let (tag, next) ←
    if c.peekAt? 1 == some '<' then do
      let (name, next) ← takeSomeAddress? true (c.skipMany 2)
      if next.at? '>' then some (Token.tag "" (nameOf name), next.skip) else none
    else do
      let (handle, next) ← takeHandle? c
      if isClosedHandle handle then do
        let (name, next) ← takeSomeAddress? false next
        some (Token.tag (nameOf handle) (nameOf name), next)
      else do
        let (address, next) ← takeAddress false next
        let name := nameOf (handle.tail ++ address)
        if name.isEmpty then some (Token.tag "" "!", next) else some (Token.tag "!" name, next)
  if next.gapAt 0 || (inFlow && next.at? ',') then some (tag, next) else none

/-- A number of a version: one to nine digits. -/
def takeNumber? (c : Cursor) : Option (Nat × Cursor) :=
  let (digits, next) := c.takeWhile (·.isDigit)
  if digits.isEmpty || digits.length > 9 then none
  else some (digits.foldl (fun n digit => n * 10 + (digit.toNat - '0'.toNat)) 0, next)

/-- A directive, and the cursor on the next line. The cursor is given after the percent sign. -/
def takeDirective? (c : Cursor) : Option (Token × Cursor) := do
  let (word, next) := c.takeWhile isWord
  let argument := next.skipSpaces
  if !next.gapAt 0 then none
  else if word == "YAML".toList then do
    let (major, next) ← takeNumber? argument
    let (minor, next) ← if next.at? '.' then takeNumber? next.skip else none
    some (.version major minor, ← next.finishLine?)
  else if word == "TAG".toList then do
    let (handle, next) ← takeHandle? argument
    if !(handle == ['!'] || isClosedHandle handle) || !next.peek?.any isSpace then none
    else do
      let (root, next) ← takeSomeAddress? true next.skipSpaces
      if next.gapAt 0 then some (.handle (nameOf handle) (nameOf root), ← next.finishLine?)
      else none
  else none

end Rebuild.Yaml
