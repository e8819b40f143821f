import Rebuild.Text.Invisible

/-!
# Quoted text

A message that lists file names has to show where one name ends and the next begins, so names are
put in quotes. Inside the quotes a character is shown as itself if a reader can see it and tell it
from its neighbours. The quote and the backslash get a backslash, the four usual control characters
have their short names, and whatever else is invisible is written by its code point.
-/

namespace Rebuild.Text

/-- One character of a quoted text. -/
def quoteChar (c : Char) : List Char :=
  if c = '\x22' then ['\\', '\x22']
  else if c = '\\' then ['\\', '\\']
  else if c = '\n' then ['\\', 'n']
  else if c = '\t' then ['\\', 't']
  else if c = '\r' then ['\\', 'r']
  else if c = '\x00' then ['\\', '0']
  else if isInvisible c then
    ['\\', 'u', '\x7b'] ++ Nat.toDigits 16 c.toNat ++ ['\x7d']
  else [c]

/-- A text in double quotes. -/
def quote (text : String) : String :=
  String.ofList (['\x22'] ++ text.toList.flatMap quoteChar ++ ['\x22'])

/-- A list of texts, each in quotes. -/
def quoteList (texts : List String) : String :=
  "[" ++ ", ".intercalate (texts.map quote) ++ "]"

end Rebuild.Text
