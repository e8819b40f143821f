/-!
# Tokens of a document

A document is first cut into tokens. Punctuation and scalars stand in the text; where a nested block
starts and ends, and that something is a key, is worked out from columns and colons.
-/

namespace Rebuild.Yaml

/-- How a scalar is written. -/
inductive Style where
  | plain
  | singleQuoted
  | doubleQuoted
  | literal
  | folded
deriving DecidableEq

/-- A token. -/
inductive Token where
  | streamEnd
  | version (major minor : Nat)
  | handle (name root : String)
  | documentStart
  | documentEnd
  | blockListStart
  | blockMapStart
  | blockEnd
  | flowListStart
  | flowListEnd
  | flowMapStart
  | flowMapEnd
  | blockEntry
  | flowEntry
  | key
  | value
  | alias (name : String)
  | anchor (name : String)
  | tag (handle name : String)
  | scalar (text : String) (style : Style)
deriving DecidableEq

end Rebuild.Yaml
