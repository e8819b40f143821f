import Rebuild.Decimal.Double
import Rebuild.Yaml.Fault
import Rebuild.Yaml.Token
import Rebuild.Yaml.Token.Quoted

/-!
# What a scalar stands for

The text of a plain scalar can stand for nothing, for a truth value or for a number. A scalar with a
tag for one of these must stand for it, however it is written; otherwise a scalar in quotes is a
text. Whole numbers have 128 bits at most and can be written with other bases; what is greater is
read as a decimal number. Digits behind a needless zero are a text.
-/

namespace Rebuild.Yaml

/-- The words for nothing. -/
def isNullWord (text : String) : Bool :=
  text == "~" || text == "null" || text == "Null" || text == "NULL"

/-- The truth value that a word names. -/
def readBool? (text : String) : Option Bool :=
  if text == "true" || text == "True" || text == "TRUE" then some true
  else if text == "false" || text == "False" || text == "FALSE" then some false
  else none

/-- Whether a text is digits behind a needless zero, with or without a sign. -/
def isPadded (text : List Char) : Bool :=
  let digits := match text with
    | '-' :: rest => rest
    | '+' :: rest => rest
    | rest => rest
  digits.length > 1 && digits.head? == some '0' && digits.all Char.isDigit

/-- The number that digits of a base write, at least one. -/
def readDigits? (base : Nat) (digits : List Char) : Option Nat :=
  if digits.isEmpty then none
  else digits.foldlM (fun n digit => do
    let value ← hexValue? digit
    if value < base then some (n * base + value) else none) 0

/-- A whole number without a sign. -/
def readMagnitude? (text : List Char) : Option Nat :=
  match text with
  | '0' :: 'x' :: digits => readDigits? 16 digits
  | '0' :: 'o' :: digits => readDigits? 8 digits
  | '0' :: 'b' :: digits => readDigits? 2 digits
  | digits => if isPadded digits then none else readDigits? 10 digits

/-- A whole number that is not the opposite of another one. -/
def readUnsigned? (text : String) : Option Nat :=
  match text.toList with
  | '+' :: rest => readMagnitude? rest
  | rest => readMagnitude? rest

/-- A whole number of at most 128 bits, as what it is found to be. -/
def readInteger? (text : String) : Option Found :=
  match text.toList with
  | '-' :: rest => do
    let n ← readMagnitude? rest
    if n ≤ 1 <<< 63 then some (.integer (-n))
    else if n ≤ 1 <<< 127 then some (.wideInteger (-n))
    else none
  | _ => do
    let n ← readUnsigned? text
    if n < 1 <<< 64 then some (.integer n)
    else if n < 1 <<< 128 then some (.wideInteger n)
    else none

/-- The digits of a number that need not be whole. It is rounded to a double. -/
def readDecimal? (text : String) : Option String :=
  let unsigned := match text.toList with
    | '+' :: '+' :: _ => none
    | '+' :: '-' :: _ => none
    | '+' :: rest => some (String.ofList rest)
    | _ => some text
  unsigned.bind fun unsigned =>
    if unsigned == ".inf" || unsigned == ".Inf" || unsigned == ".INF" then some "inf"
    else if text == "-.inf" || text == "-.Inf" || text == "-.INF" then some "-inf"
    else if text == ".nan" || text == ".NaN" || text == ".NAN" then some "NaN"
    else do
      let decimal ← Decimal.read? unsigned.toList
      let double ← Double.ofDecimal? decimal
      some ((if decimal.negative then "-" else "") ++ double.text)

/-- What a plain scalar is found to be. -/
def Found.ofPlain (text : String) : Found :=
  if text.isEmpty || isNullWord text then .nothing
  else
    match readBool? text, readInteger? text, readDecimal? text with
    | some value, _, _ => .boolean value
    | none, some found, _ => found
    | none, none, some digits => if isPadded text.toList then .text text else .decimal digits
    | none, none, none => .text text

/-- The tag of a kind of value. -/
def coreTag (kind : String) : String := "tag:yaml.org,2002:" ++ kind

/-- What is wrong with a scalar that stands where something else is wanted. A scalar that fails its
own tag is wrong in that already. -/
def scalarProblem (tag : Option String) (text : String) (style : Style) (wanted : String) :
    Problem :=
  let tagged (found : Option Found) (kind : String) : Problem :=
    match found with
    | some found => .wrongType found wanted
    | none => .wrongValue (.text text) kind
  let isPlain := style == .plain
  match tag with
  | none => .wrongType (if isPlain then .ofPlain text else .text text) wanted
  | some tag =>
    if tag == coreTag "bool" then tagged ((readBool? text).map .boolean) "a boolean"
    else if tag == coreTag "int" then tagged (readInteger? text) "an integer"
    else if tag == coreTag "float" then tagged ((readDecimal? text).map .decimal) "a float"
    else if tag == coreTag "null" then
      tagged (if isNullWord text then some .nothing else none) "null"
    else
      .wrongType (if isPlain && tag.startsWith "!" then .ofPlain text else .text text) wanted

end Rebuild.Yaml
