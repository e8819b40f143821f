import Rebuild.Yaml.Event
import Rebuild.Yaml.Token.Stream

/-!
# Documents

A document is read as far as it has no fault, and what is wanted of it is looked for in that part.
So a value that is not what is wanted is reported before a fault further down, and a fault that
nobody reaches is reported at the end.
-/

namespace Rebuild.Yaml

/-- The events of a document up to its first fault, and whether that is all of the text. -/
structure Document where
  events : List Event
  isWhole : Bool
deriving DecidableEq

namespace Document

/-- The first document of a text. The text must not hold a second one. -/
def ofText (text : String) : Document :=
  let (events, rest) := Event.ofTokens (Token.ofText text)
  let isWhole := rest.any fun tokens =>
    (tokens.dropWhile (· == .documentEnd)).head? == some .streamEnd
  ⟨events, isWhole⟩

/-- The number of the name that is given to the value that starts here. -/
def anchor? : List Event → Option Nat
  | .scalar anchor _ _ _ :: _ => anchor
  | .listStart anchor :: _ => anchor
  | .mapStart anchor :: _ => anchor
  | _ => none

/-- The events from the last value with a number on. -/
def fromAnchor? (number : Nat) : List Event → Option (List Event)
  | [] => none
  | event :: rest =>
    match fromAnchor? number rest with
    | some found => some found
    | none => if anchor? (event :: rest) = some number then some (event :: rest) else none

end Document

end Rebuild.Yaml
