import Rebuild.Text.Quoted

/-!
# Faults of a document

A document can be no document at all, or a document that does not say what is asked of it. The first
kind is reported without detail. The second is reported with the place of the value that is wrong:
the keys and list positions that lead to it from the top.
-/

namespace Rebuild.Yaml

/-- One step down into a value. -/
inductive Step where
  | item (index : Nat)
  | key (name : String)
  | nameless

/-- The way to a value, from the top. -/
abbrev Place := List Step

/-- The text of a place. The top is a dot, which is left out before a key. -/
def Place.text (place : Place) : String :=
  let below (parent : String) : String := if parent = "." then "" else parent ++ "."
  place.foldl (fun parent step =>
    match step with
    | .item index => parent ++ s!"[{index}]"
    | .key name => below parent ++ name
    | .nameless => below parent ++ "?") "."

/-- What stood in a document where something else was wanted. -/
inductive Found where
  | text (value : String)
  | integer (value : Int)
  | wideInteger (value : Int)
  | decimal (digits : String)
  | boolean (value : Bool)
  | nothing
  | list
  | map

/-- The words for what was found. A number beyond 64 bits is shown with the width that holds it. -/
def Found.message : Found → String
  | text value => "string " ++ Text.quote value
  | integer value => s!"integer `{value}`"
  | wideInteger value => s!"integer `{value}` as " ++ (if value < 0 then "i128" else "u128")
  | decimal digits => s!"floating point `{digits}`"
  | boolean value => s!"boolean `{value}`"
  | nothing => "unit value"
  | list => "sequence"
  | map => "map"

/-- How a value fails to be what is asked for. -/
inductive Problem where
  | wrongType (found : Found) (wanted : String)
  | wrongValue (found : Found) (wanted : String)
  | unknownField (name : String) (known : List String)
  | duplicateField (name : String)
  | missingField (name : String)
  | rejected (reason : String)

/-- The words for a problem. -/
def Problem.message : Problem → String
  | wrongType found wanted => s!"invalid type: {found.message}, expected {wanted}"
  | wrongValue found wanted => s!"invalid value: {found.message}, expected {wanted}"
  | unknownField name known =>
    s!"unknown field `{name}`, expected one of " ++ ", ".intercalate (known.map fun k => s!"`{k}`")
  | duplicateField name => s!"duplicate field `{name}`"
  | missingField name => s!"missing field `{name}`"
  | rejected reason => reason

/-- Why a document cannot be read. -/
inductive Fault where
  | malformed
  | ended
  | tooManyRepetitions
  | unsuitable (place : Place) (problem : Problem)

/-- The report of a fault. The place is left out at the top. -/
def Fault.message : Fault → String
  | malformed => "<yaml>"
  | ended => "EOF while parsing a value"
  | tooManyRepetitions => "repetition limit exceeded"
  | unsuitable place problem =>
    if place.text = "." then problem.message else place.text ++ ": " ++ problem.message

end Rebuild.Yaml
