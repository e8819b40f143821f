import Rebuild.Yaml.Document
import Rebuild.Yaml.Scalar

/-!
# Decoding documents

A decoder says what is wanted of a value: a text, a number, a list of such, or a record with known
fields. It reads the events of a document from the front. An alias is read as the value that it
repeats; how often that happens in one document is bounded.

A value that is not of the wanted kind is reported at its own place. All else that is wrong with a
value is reported at the list or map around it.
-/

namespace Rebuild.Yaml

/-- What is left of a document, and how often a value was repeated. -/
structure Source where
  rest : List Event
  repeats : Nat

/-- Reads a value of a document. -/
abbrev Decoder := ReaderT Document (StateT Source (Except Fault))

namespace Decoder

variable {α : Type}

/-- The next event, which is not passed. -/
def peek : Decoder Event := do
  match (← get).rest with
  | [] => throw .malformed
  | event :: _ => return event

/-- The next event. -/
def next : Decoder Event := do
  let event ← peek
  modify fun source => { source with rest := source.rest.tail }
  return event

/-- Reads a value, or the one that an alias repeats. -/
def repeated (value : Decoder α) : Decoder α := do
  match ← peek with
  | .alias number =>
    let source ← get
    let document ← read
    if document.events.length * 100 < source.repeats + 1 then throw .tooManyRepetitions
    set (Source.mk ((Document.fromAnchor? number document.events).getD []) (source.repeats + 1))
    let result ← value
    modify fun after => { after with rest := source.rest.tail }
    return result
  | _ => value

/-- Reports a value that something else was wanted for. -/
def refuse (place : Place) (event : Event) (wanted : String) : Decoder α :=
  match event with
  | .scalar _ tag text style => throw (.unsuitable place (scalarProblem tag text style wanted))
  | .mapStart _ => throw (.unsuitable place (.wrongType .map wanted))
  | .void => throw .ended
  | _ => throw (.unsuitable place (.wrongType .list wanted))

/-- Whether a list or record that starts so has nothing in it. -/
def isNothing : Event → Bool
  | .void => true
  | .scalar _ _ "" .plain => true
  | _ => false

/-- A text: any scalar, as it is written. -/
def text (place : Place) (wanted : String) : Decoder String := repeated do
  match ← next with
  | .scalar _ _ text _ => return text
  | event => refuse place event wanted

/-- What a decoder reads, unless the value stands for nothing. Around the value is another place. -/
def optional (around : Place) (value : Decoder α) : Decoder (Option α) := repeated do
  let isPresent ← match ← peek with
    | .void => pure false
    | .scalar _ tag text .plain =>
      match tag with
      | some tag =>
        if tag != coreTag "null" then pure true
        else if isNullWord text then pure false
        else throw (.unsuitable around (.wrongValue (.text text) "null"))
      | none => pure !(text.isEmpty || isNullWord text)
    | _ => pure true
  if isPresent then some <$> value
  else do
    let _ ← next
    return none

/-- A scalar that a reader accepts. It is plain, or it is kept as it is and has the tag. -/
def scalar (place : Place) (wanted kind : String) (accepts : String → Option α) : Decoder α :=
  repeated do
    let event ← next
    match event with
    | .scalar _ tag text style =>
      if style == .plain || (style == .literal && tag == some (coreTag kind)) then
        match accepts text with
        | some value => return value
        | none => refuse place event wanted
      else refuse place event wanted
    | _ => refuse place event wanted

/-- A truth value. -/
def bool (place : Place) : Decoder Bool := scalar place "a boolean" "bool" readBool?

/-- A whole number of 64 bits. -/
def word (place : Place) : Decoder UInt64 := scalar place "u64" "int" fun text => do
  let n ← readUnsigned? text
  if n < UInt64.size then some (.ofNat n) else none

/-- The items of a list from an index on. There are at most so many. -/
def items (place : Place) (item : Place → Decoder α) : Nat → Nat → Decoder (List α)
  | 0, _ => throw .malformed
  | most + 1, index => do
    match ← peek with
    | .listEnd =>
      let _ ← next
      return []
    | _ =>
      let first ← item (place ++ [.item index])
      let others ← items place item most (index + 1)
      return first :: others

/-- A list. -/
def list (place : Place) (item : Place → Decoder α) : Decoder (List α) := repeated do
  let event ← next
  match event with
  | .listStart _ => items place item (← get).rest.length 0
  | _ => if isNothing event then return [] else refuse place event "a sequence"

/-- The step from a map to the value of a key that starts so. -/
def keyStep : Event → Step
  | .scalar _ _ text _ => .key text
  | _ => .nameless

/-- The fields of a record, each at most once, added to what is known from the fields before. There
are at most so many. -/
def fields (place : Place) (known : List String) (field : α → String → Place → Decoder α) :
    Nat → List String → α → Decoder α
  | 0, _, _ => throw .malformed
  | most + 1, given, value => do
    let event ← peek
    match event with
    | .mapEnd =>
      let _ ← next
      return value
    | _ =>
      let name ← text place "field identifier"
      if !known.contains name then throw (.unsuitable place (.unknownField name known))
      if given.contains name then throw (.unsuitable place (.duplicateField name))
      let value ← field value name (place ++ [keyStep event])
      fields place known field most (name :: given) value

/-- A record: what its fields add to what holds without them. -/
def record (place : Place) (wanted : String) (known : List String)
    (field : α → String → Place → Decoder α) (start : α) : Decoder α := repeated do
  let event ← next
  match event with
  | .mapStart _ => do
    let most := (← get).rest.length
    fields place known field most [] start
  | _ => if isNothing event then return start else refuse place event wanted

end Decoder

/-- Decodes a document that is all of a text. -/
def decode {α : Type} (decoder : Decoder α) (text : String) : Except Fault α := do
  let document := Document.ofText text
  let (value, _) ← (decoder.run document).run ⟨document.events, 0⟩
  if document.isWhole then return value else throw .malformed

end Rebuild.Yaml
