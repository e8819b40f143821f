import Rebuild.Yaml.Readable
import Rebuild.Yaml.Token.Tag
import Rebuild.Yaml.Token.Plain
import Rebuild.Yaml.Token.Block

/-!
# The tokens of a text

Most tokens are seen where they stand. Two kinds are not. A block starts where a list entry or a key
stands deeper than what is around it, and ends where something stands less deep. And that something
was a key is only known when a colon follows it on the same line, at most 1024 octets after its
start; the tokens for the key and for the block that it opens are then put in front of it.

So while a key is still possible, the tokens from its start on are not final. Where the text breaks
the rules, or goes on with what cannot be read, the tokens are those that are final before that.
-/

namespace Rebuild.Yaml

/-- A place where a key may have started, and how many tokens stand before it. In a block a key that
starts in the column of the block is required: nothing else may stand there. -/
structure KeyStart where
  number : Nat
  place : Cursor
  required : Bool

/-- Whether a colon at a place would come too late for a key. -/
def KeyStart.expired (key : KeyStart) (place : Cursor) : Bool :=
  key.place.line < place.line || key.place.offset + 1024 < place.offset

/-- A text that is cut up to a cursor: the tokens so far, with the last one first, and their number;
the columns of the open blocks from the inmost out; the possible key within the inmost brackets and
those around it, one for each pair of brackets; and whether a key may start here. A text that goes
on with what cannot be read breaks off. -/
structure Cutting where
  breaksOff : Bool
  cursor : Cursor
  tokens : List Token
  count : Nat
  indents : List Nat
  key : Option KeyStart
  outerKeys : List (Option KeyStart)
  keyAllowed : Bool

namespace Cutting

/-- Before a text. -/
def ofText (text : List Char) : Cutting :=
  let chars := readable text
  ⟨chars.length < text.length, ⟨chars, 0, 0, 0⟩, [], 0, [], none, [], true⟩

/-- Whether brackets are open. -/
def inFlow (s : Cutting) : Bool := !s.outerKeys.isEmpty

/-- The column of the inmost block. -/
def indent? (s : Cutting) : Option Nat := s.indents.head?

/-- Adds a token. -/
def push (s : Cutting) (token : Token) : Cutting :=
  { s with tokens := token :: s.tokens, count := s.count + 1 }

/-- Puts a token in front of those from a number on. -/
def insert (s : Cutting) (number : Nat) (token : Token) : Cutting :=
  let later := s.count - number
  { s with
    tokens := s.tokens.take later ++ token :: s.tokens.drop later
    count := s.count + 1 }

/-- Goes on at a cursor. -/
def goto (s : Cutting) (cursor : Cursor) : Cutting := { s with cursor }

/-- Says whether a key may start next. -/
def allowing (s : Cutting) (keyAllowed : Bool) : Cutting := { s with keyAllowed }

/-- Gives up on the possible key; a required one cannot be given up. -/
def withoutKey? (s : Cutting) : Option Cutting :=
  if s.key.any (·.required) then none else some { s with key := none }

/-- Notes that a key may start here, if one may. -/
def withKey? (s : Cutting) : Option Cutting :=
  if s.keyAllowed then do
    let s ← s.withoutKey?
    let required := !s.inFlow && s.indent? == some s.cursor.column
    some { s with key := some ⟨s.count, s.cursor, required⟩ }
  else some s

/-- Gives up on a possible key that has expired. -/
def unexpired? (cursor : Cursor) : Option KeyStart → Option (Option KeyStart)
  | none => some none
  | some key =>
    if key.expired cursor then (if key.required then none else some none) else some (some key)

/-- Gives up on all possible keys that have expired. -/
def withoutExpired? (s : Cutting) : Option Cutting := do
  let key ← unexpired? s.cursor s.key
  let outerKeys ← s.outerKeys.mapM (unexpired? s.cursor)
  some { s with key, outerKeys }

/-- Closes the blocks that are deeper than a column, or all of them. Brackets keep blocks open. -/
def outdent (s : Cutting) (column : Option Nat) : Cutting :=
  if s.inFlow then s
  else
    let deeper := s.indents.takeWhile fun indent => column.all (· < indent)
    { s with
      indents := s.indents.drop deeper.length
      tokens := List.replicate deeper.length .blockEnd ++ s.tokens
      count := s.count + deeper.length }

/-- Opens a block with a token that is put before those from a number on, if the column is deeper
than the inmost block. Within brackets there are no blocks. -/
def indentTo (s : Cutting) (column number : Nat) (token : Token) : Cutting :=
  if !s.inFlow && s.indent?.all (· < column) then
    { s.insert number token with indents := column :: s.indents }
  else s

/-- Past what may stand in front of a token on its line: a byte order mark in the first column, then
spaces, then a comment. A tab is passed like a space, except where a key may start in a block. -/
def skipMargin (tabs : Bool) (c : Cursor) : Cursor :=
  let c := if c.column == 0 && c.at? '\ufeff' then c.skip else c
  (c.takeWhile fun char => char == ' ' || (tabs && char == '\t')).2.skipComment

theorem length_skipMargin_le (tabs : Bool) (c : Cursor) :
    (skipMargin tabs c).rest.length ≤ c.rest.length := by
  unfold skipMargin
  refine Nat.le_trans (Cursor.length_skipComment_le _)
    (Nat.le_trans (Cursor.length_takeWhile_le _ _) ?_)
  split
  · exact Cursor.length_skip_le c
  · exact Nat.le_refl _

/-- What stands between two tokens, and whether a key may start after it. -/
def skipGap (inFlow keyAllowed : Bool) (c : Cursor) : Cursor × Bool :=
  let next := skipMargin (inFlow || !keyAllowed) c
  match _hpeek : next.peek? with
  | none => (next, keyAllowed)
  | some char =>
    if _hbreak : isBreak char then skipGap inFlow (keyAllowed || !inFlow) next.takeBreak.2
    else (next, keyAllowed)
termination_by c.rest.length
decreasing_by
  exact Nat.lt_of_lt_of_le (Cursor.length_takeBreak_lt _hpeek _hbreak) (length_skipMargin_le _ _)

/-- The end of the text. -/
def takeEnd? (s : Cutting) : Option Cutting := do
  let cursor := s.cursor
  let cursor := if cursor.column = 0 then cursor
    else { cursor with line := cursor.line + 1, column := 0 }
  let s ← ((s.goto cursor).outdent none).withoutKey?
  some ((s.allowing false).push .streamEnd)

/-- A line that ends all blocks: a directive, or one that separates documents. -/
def takeSeparator? (s : Cutting) : Option Cutting := do
  let s ← (s.outdent none).withoutKey?
  let s := s.allowing false
  if s.cursor.at? '%' then
    let (token, next) ← takeDirective? s.cursor.skip
    some ((s.push token).goto next)
  else
    let token := if s.cursor.at? '-' then Token.documentStart else .documentEnd
    some ((s.push token).goto (s.cursor.skipMany 3))

/-- An opening bracket, which may start a key. -/
def takeOpening? (s : Cutting) (token : Token) : Option Cutting := do
  let s ← s.withKey?
  some (({ s with key := none, outerKeys := s.key :: s.outerKeys }.allowing true).push token |>.goto
    s.cursor.skip)

/-- A closing bracket. -/
def takeClosing? (s : Cutting) (token : Token) : Option Cutting := do
  let s ← s.withoutKey?
  let s := match s.outerKeys with
    | key :: outerKeys => { s with key, outerKeys }
    | [] => s
  some (((s.allowing false).push token).goto s.cursor.skip)

/-- A comma within brackets. -/
def takeComma? (s : Cutting) : Option Cutting := do
  let s ← s.withoutKey?
  some (((s.allowing true).push .flowEntry).goto s.cursor.skip)

/-- Opens a block for an indicator, if need be. In a block the indicator must stand where a key may.
-/
def withBlock? (s : Cutting) (token : Token) : Option Cutting :=
  if s.inFlow then some s
  else if s.keyAllowed then some (s.indentTo s.cursor.column s.count token)
  else none

/-- The hyphen of a list entry. -/
def takeEntry? (s : Cutting) : Option Cutting := do
  let s ← s.withBlock? .blockListStart
  let s ← s.withoutKey?
  some (((s.allowing true).push .blockEntry).goto s.cursor.skip)

/-- The question mark before a key. -/
def takeQuestion? (s : Cutting) : Option Cutting := do
  let s ← s.withBlock? .blockMapStart
  let s ← s.withoutKey?
  some (((s.allowing !s.inFlow).push .key).goto s.cursor.skip)

/-- The colon before a value. It settles that the possible key is one. -/
def takeColon? (s : Cutting) : Option Cutting := do
  let s ← match s.key with
    | some key =>
      let s := (s.insert key.number .key).indentTo key.place.column key.number .blockMapStart
      some { s with key := none, keyAllowed := false }
    | none => do
      let s ← s.withBlock? .blockMapStart
      some (s.allowing !s.inFlow)
  some ((s.push .value).goto s.cursor.skip)

/-- An alias or an anchor, which may start a key. -/
def takeNamed? (s : Cutting) (token : String → Token) : Option Cutting := do
  let s ← s.withKey?
  let (name, next) ← takeName? s.cursor.skip
  some (((s.allowing false).push (token name)).goto next)

/-- A tag, which may start a key. -/
def takeTagged? (s : Cutting) : Option Cutting := do
  let s ← s.withKey?
  let (token, next) ← takeTag? s.inFlow s.cursor
  some (((s.allowing false).push token).goto next)

/-- A block scalar. -/
def takeBlockScalar? (s : Cutting) (style : Style) : Option Cutting := do
  let s ← s.withoutKey?
  let (text, next) ← takeBlock (style == .folded) s.indent? s.cursor.skip
  some (((s.allowing true).push (.scalar (String.ofList text) style)).goto next)

/-- A scalar in quotes, which may be a key. -/
def takeQuotedScalar? (s : Cutting) (quote : Char) (style : Style) : Option Cutting := do
  let s ← s.withKey?
  let (text, next) ← takeQuoted quote s.cursor.skip
  some (((s.allowing false).push (.scalar (String.ofList text) style)).goto next)

/-- A plain scalar, which may be a key. Where it ends with a line, a key may start after it. -/
def takePlainScalar? (s : Cutting) : Option Cutting := do
  let s ← s.withKey?
  let indent := match s.indent? with
    | some column => column + 1
    | none => 0
  let (text, endsLine, next) ← takePlain s.inFlow indent .none s.cursor
  some (((s.allowing endsLine).push (.scalar (String.ofList text) .plain)).goto next)

/-- Whether a plain scalar may start with a character. -/
def startsPlain (s : Cutting) (char : Char) : Bool :=
  if char == '-' then !(s.cursor.peekAt? 1).any isSpace
  else if char == '?' || char == ':' then !s.inFlow && !s.cursor.gapAt 1
  else !isSpace char && !",[]\x7b\x7d#&*!|>\x27\x22%@`".toList.contains char

/-- Whether fewer than so many characters are left of a text that breaks off. Where it breaks off,
it cannot be seen what stands there. -/
def isBlind (s : Cutting) (cursor : Cursor) (n : Nat) : Bool :=
  s.breaksOff && (cursor.rest.drop (n - 1)).isEmpty

/-- The next token, with what it implies. Four characters have to be seen to tell where a token or a
document starts. -/
def next? (s : Cutting) : Option Cutting := do
  let (cursor, keyAllowed) := skipGap s.inFlow s.keyAllowed s.cursor
  if s.isBlind cursor 4 then none
  let s ← ((s.goto cursor).allowing keyAllowed).withoutExpired?
  let s := s.outdent (some cursor.column)
  match cursor.peek? with
  | none => s.takeEnd?
  | some char =>
    let indicates := cursor.gapAt 1
    if cursor.atSeparator || (cursor.column == 0 && char == '%') then s.takeSeparator?
    else if char == '[' then s.takeOpening? .flowListStart
    else if char == '\x7b' then s.takeOpening? .flowMapStart
    else if char == ']' then s.takeClosing? .flowListEnd
    else if char == '\x7d' then s.takeClosing? .flowMapEnd
    else if char == ',' then s.takeComma?
    else if char == '-' && indicates then s.takeEntry?
    else if char == '?' && (s.inFlow || indicates) then s.takeQuestion?
    else if char == ':' && (s.inFlow || indicates) then s.takeColon?
    else if char == '*' then s.takeNamed? .alias
    else if char == '&' then s.takeNamed? .anchor
    else if char == '!' then s.takeTagged?
    else if char == '|' && !s.inFlow then s.takeBlockScalar? .literal
    else if char == '>' && !s.inFlow then s.takeBlockScalar? .folded
    else if char == '\x27' then s.takeQuotedScalar? '\x27' .singleQuoted
    else if char == '\x22' then s.takeQuotedScalar? '\x22' .doubleQuoted
    else if s.startsPlain char then s.takePlainScalar?
    else none

/-- The tokens that are final: those before the first possible key. -/
def final (s : Cutting) : List Token :=
  match ((s.key :: s.outerKeys).filterMap fun key => key.map (·.number)).min? with
  | some number => (s.tokens.drop (s.count - number)).reverse
  | none => s.tokens.reverse

/-- Whether the end of the text is reached. -/
def ended (s : Cutting) : Bool := s.tokens.head? == some .streamEnd

/-- Cuts the rest of the text, in at most so many steps. -/
def run : Nat → Cutting → List Token
  | 0, s => s.final
  | steps + 1, s =>
    if s.ended then s.tokens.reverse
    else
      match s.next?.bind withoutExpired? with
      | none => s.final
      | some next => if s.isBlind next.cursor 1 then s.final else run steps next

end Cutting

/-- The tokens of a text. The last one is the end of the text, unless there is a fault. Every step
but the last passes a character. -/
def Token.ofText (text : String) : List Token :=
  (Cutting.ofText text.toList).run (text.length + 2)

end Rebuild.Yaml
