/-!
# Log lines

What the library does on the way to an answer is told in lines of text, each with a weight. The
lines belong to the answer: callers show them, and their order is part of what they say.
-/

namespace Rebuild

/-- How much a line matters. -/
inductive Level where
  | debug
  | info
  | warning
deriving DecidableEq

/-- One line of a log. -/
structure LogLine where
  level : Level
  text : String
deriving DecidableEq

end Rebuild
