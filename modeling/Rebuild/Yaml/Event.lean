import Rebuild.Yaml.Token

/-!
# Events of a document

Tokens are grouped into values: scalars, and lists and maps with a start and an end. Where the
tokens leave a value out, an empty plain scalar stands for it. A value may be named, and an alias
repeats a named value.

Names are numbered. A name gets the number of names that were in use before it, so a name that is
given again may share its number with the next new one.
-/

namespace Rebuild.Yaml

/-- A part of a value. Values carry the number of their name. -/
inductive Event where
  | alias (number : Nat)
  | scalar (anchor : Option Nat) (tag : Option String) (text : String) (style : Style)
  | listStart (anchor : Option Nat)
  | listEnd
  | mapStart (anchor : Option Nat)
  | mapEnd
  | void
deriving DecidableEq

/-- The value that is left out. -/
def Event.empty : Event := .scalar none none "" .plain

/-- What is to be read next. -/
inductive Pending where
  | node (inBlock keepsColumn : Bool)
  | entry
  | hyphen
  | key
  | value
  | item (first : Bool)
  | pairKey
  | pairValue
  | pairEnd
  | flowKey (first : Bool)
  | flowValue
  | flowNoValue

/-- Tokens that are not read yet, with the handles and names that are known. -/
structure Parsing where
  tokens : List Token
  handles : List (String × String)
  names : List (String × Nat)

namespace Parsing

/-- What a step gives: events, what is to be read in place of what was read, and what is left. -/
abbrev Result := Option (List Event × List Pending × Parsing)

/-- Goes on with the tokens that are left. -/
def goto (s : Parsing) (tokens : List Token) : Parsing := { s with tokens }

/-- A value, unless it is left out: then one of these tokens follows. -/
def valueBefore (s : Parsing) (enders : List Token) (node after : Pending) : Result :=
  match s.tokens with
  | [] => none
  | token :: _ =>
    if enders.contains token then some ([.empty], [after], s) else some ([], [node, after], s)

/-- The properties before a value: its name and its tag, in either order. -/
def properties (s : Parsing) : Option String × Option (String × String) × Parsing :=
  match s.tokens with
  | .anchor name :: .tag handle suffix :: rest => (some name, some (handle, suffix), s.goto rest)
  | .tag handle suffix :: .anchor name :: rest => (some name, some (handle, suffix), s.goto rest)
  | .anchor name :: rest => (some name, none, s.goto rest)
  | .tag handle suffix :: rest => (none, some (handle, suffix), s.goto rest)
  | _ => (none, none, s)

/-- The full name of a tag. An unknown handle is refused. -/
def tagName? (s : Parsing) (handle suffix : String) : Option String :=
  if handle.isEmpty then some suffix else (s.handles.lookup handle).map (· ++ suffix)

/-- Gives a name to the value that starts here. -/
def named (s : Parsing) : Option String → Option Nat × Parsing
  | none => (none, s)
  | some name =>
    let number := s.names.length
    (some number, { s with names := (name, number) :: s.names.filter (·.1 != name) })

/-- A value. Only in a block it may open a block, and only after a key or a colon it may be a list
that keeps the column of its map. -/
def node (s : Parsing) (inBlock keepsColumn : Bool) : Result :=
  match s.tokens with
  | .alias name :: rest => do
    let number ← s.names.lookup name
    some ([.alias number], [], s.goto rest)
  | _ => do
    let (name, written, s) := s.properties
    let tag ← match written with
      | none => some none
      | some (handle, suffix) => (s.tagName? handle suffix).map some
    let (anchor, s) := s.named name
    match s.tokens with
    | [] => none
    | token :: rest =>
      let next := s.goto rest
      match token with
      | .scalar text style => some ([.scalar anchor tag text style], [], next)
      | .flowListStart => some ([.listStart anchor], [.item true], next)
      | .flowMapStart => some ([.mapStart anchor], [.flowKey true], next)
      | _ =>
        if keepsColumn && token == .blockEntry then some ([.listStart anchor], [.hyphen], s)
        else if inBlock && token == .blockListStart then some ([.listStart anchor], [.entry], next)
        else if inBlock && token == .blockMapStart then some ([.mapStart anchor], [.key], next)
        else if name.isSome || tag.isSome then some ([.scalar anchor tag "" .plain], [], s)
        else none

/-- One step. -/
def step (s : Parsing) (pending : Pending) : Result :=
  match s.tokens with
  | [] => none
  | token :: rest =>
    let next := s.goto rest
    match pending, token with
    | .node inBlock keepsColumn, _ => s.node inBlock keepsColumn
    | .entry, .blockEntry =>
      next.valueBefore [.blockEntry, .blockEnd] (.node true false) .entry
    | .entry, .blockEnd => some ([.listEnd], [], next)
    | .entry, _ => none
    | .hyphen, .blockEntry =>
      next.valueBefore [.blockEntry, .key, .value, .blockEnd] (.node true false) .hyphen
    | .hyphen, _ => some ([.listEnd], [], s)
    | .key, .key => next.valueBefore [.key, .value, .blockEnd] (.node true true) .value
    | .key, .blockEnd => some ([.mapEnd], [], next)
    | .key, _ => none
    | .value, .value => next.valueBefore [.key, .value, .blockEnd] (.node true true) .key
    | .value, _ => some ([.empty], [.key], s)
    | .item _, .flowListEnd => some ([.listEnd], [], next)
    | .item false, .flowEntry => some ([], [.item true], next)
    | .item false, _ => none
    | .item true, .key => some ([.mapStart none], [.pairKey, .item false], next)
    | .item true, _ => some ([], [.node false false, .item false], s)
    | .pairKey, .value => some ([.empty], [.pairValue], next)
    | .pairKey, .flowEntry => some ([.empty], [.pairValue], next)
    | .pairKey, .flowListEnd => some ([.empty], [.pairValue], next)
    | .pairKey, _ => some ([], [.node false false, .pairValue], s)
    | .pairValue, .value =>
      next.valueBefore [.flowEntry, .flowListEnd] (.node false false) .pairEnd
    | .pairValue, _ => some ([.empty], [.pairEnd], s)
    | .pairEnd, _ => some ([.mapEnd], [], s)
    | .flowKey _, .flowMapEnd => some ([.mapEnd], [], next)
    | .flowKey false, .flowEntry => some ([], [.flowKey true], next)
    | .flowKey false, _ => none
    | .flowKey true, .key =>
      next.valueBefore [.value, .flowEntry, .flowMapEnd] (.node false false) .flowValue
    | .flowKey true, _ => some ([], [.node false false, .flowNoValue], s)
    | .flowValue, .value =>
      next.valueBefore [.flowEntry, .flowMapEnd] (.node false false) (.flowKey false)
    | .flowValue, _ => some ([.empty], [.flowKey false], s)
    | .flowNoValue, _ => some ([.empty], [.flowKey false], s)

/-- Reads all that is to be read, in at most so many steps. Gives the events up to the first fault,
and what is left if there is none. -/
def run : Nat → List Pending → Parsing → List Event × Option Parsing
  | _, [], s => ([], some s)
  | 0, _, _ => ([], none)
  | steps + 1, pending :: others, s =>
    match s.step pending with
    | none => ([], none)
    | some (events, instead, next) =>
      let (more, result) := run steps (instead ++ others) next
      (events ++ more, result)

/-- Reads all that is to be read. Every token is looked at a few times at most. -/
def runAll (s : Parsing) (pending : List Pending) : List Event × Option Parsing :=
  s.run (8 * (s.tokens.length + 1)) pending

end Parsing

/-- The handles that every document knows. -/
def defaultHandles : List (String × String) := [("!", "!"), ("!!", "tag:yaml.org,2002:")]

/-- The directives at the head of a document: the handles that they define, and the other tokens.
The version must be one that is known, and nothing may be said twice. -/
def takeDirectives? (versioned : Bool) (handles : List (String × String)) :
    List Token → Option (List (String × String) × List Token)
  | .version major minor :: rest =>
    if versioned || major != 1 || (minor != 1 && minor != 2) then none
    else takeDirectives? true handles rest
  | .handle name root :: rest =>
    if handles.any (·.1 == name) then none
    else takeDirectives? versioned (handles ++ [(name, root)]) rest
  | rest => some (handles ++ defaultHandles, rest)

/-- Whether a token stands at the head of a document or after its end. -/
def Token.isOutside : Token → Bool
  | .version _ _ => true
  | .handle _ _ => true
  | .documentStart => true
  | .documentEnd => true
  | .streamEnd => true
  | _ => false

/-- The events of the first document, and the tokens after it if it has no fault. A text without a
document has the one event of nothing. -/
def Event.ofTokens : List Token → List Event × Option (List Token)
  | [] => ([], none)
  | .streamEnd :: _ => ([.void], some [.streamEnd])
  | tokens@(token :: _) =>
    if token.isOutside && token != .documentEnd then
      match takeDirectives? false [] tokens with
      | some (handles, .documentStart :: content :: rest) =>
        let s : Parsing := ⟨content :: rest, handles, []⟩
        if content.isOutside then ([.empty], some s.tokens)
        else
          let (events, result) := s.runAll [.node true false]
          (events, result.map (·.tokens))
      | _ => ([], none)
    else
      let (events, result) :=
        (Parsing.mk tokens defaultHandles []).runAll [.node true false]
      (events, result.map (·.tokens))

end Rebuild.Yaml
