/-!
# Decimal numbers

A decimal is a sign, a whole coefficient and a power of ten. It is written with digits, a point that
may stand anywhere among them or be left out, and perhaps an exponent.
-/

namespace Rebuild

/-- The number `coefficient * 10 ^ exponent`, or its opposite. -/
structure Decimal where
  negative : Bool
  coefficient : Nat
  exponent : Int
deriving DecidableEq

namespace Decimal

/-- The number that decimal digits write. -/
def ofDigits (digits : List Char) : Nat :=
  digits.foldl (fun n digit => n * 10 + (digit.toNat - '0'.toNat)) 0

/-- The exponent after a number: nothing, or a mark, perhaps a sign, and digits. -/
def readExponent? : List Char → Option Int
  | [] => some 0
  | mark :: rest =>
    let digits := match rest with
      | '+' :: digits => digits
      | '-' :: digits => digits
      | digits => digits
    if (mark == 'e' || mark == 'E') && !digits.isEmpty && digits.all Char.isDigit then
      let size : Int := ofDigits digits
      some (if rest.head? == some '-' then -size else size)
    else none

/-- Reads a number without a sign. At least one digit must stand before the exponent. -/
def readUnsigned? (text : List Char) : Option (Nat × Int) := do
  let whole := text.takeWhile Char.isDigit
  let afterWhole := text.dropWhile Char.isDigit
  let pointed := afterWhole.head? == some '.'
  let fraction := if pointed then afterWhole.tail.takeWhile Char.isDigit else []
  let rest := if pointed then afterWhole.tail.dropWhile Char.isDigit else afterWhole
  let exponent ← readExponent? rest
  if whole.isEmpty && fraction.isEmpty then none
  else some (ofDigits (whole ++ fraction), exponent - fraction.length)

/-- Reads a number. Only the sign of an opposite may stand before it. -/
def read? : List Char → Option Decimal
  | '-' :: text => (readUnsigned? text).map fun (n, e) => ⟨true, n, e⟩
  | text => (readUnsigned? text).map fun (n, e) => ⟨false, n, e⟩

/-- A power of ten; one for a negative exponent. -/
def tens (exponent : Int) : Nat := Nat.pow 10 exponent.toNat

/-- How many digits a number has. -/
def digitCount (n : Nat) : Nat := (Nat.toDigits 10 n).length

/-- A number without an exponent: a point with at least one digit on either side, and no further
zeros at the end. -/
def positional (coefficient : Nat) (exponent : Int) : String :=
  let digits := Nat.toDigits 10 (coefficient * tens exponent)
  let places := (-exponent).toNat
  let padded := List.replicate (places + 1 - digits.length) '0' ++ digits
  let whole := padded.take (padded.length - places)
  let fraction := ((padded.drop (padded.length - places)).reverse.dropWhile (· == '0')).reverse
  String.ofList whole ++ "." ++ (if fraction.isEmpty then "0" else String.ofList fraction)

end Decimal

end Rebuild
