import Rebuild.Yaml.Token.Gap

/-!
# Quoted scalars

Between single quotes a quote is written twice and everything else stands for itself. Between double
quotes a backslash starts an escape, which may be a code point in hexadecimal, or hides the end of
the line. A document must not be separated within quotes, and quotes must be closed.
-/

namespace Rebuild.Yaml

/-- The value of a hexadecimal digit. -/
def hexValue? (c : Char) : Option Nat :=
  if c.isDigit then some (c.toNat - '0'.toNat)
  else if 'a' ≤ c && c ≤ 'f' then some (c.toNat - 'a'.toNat + 10)
  else if 'A' ≤ c && c ≤ 'F' then some (c.toNat - 'A'.toNat + 10)
  else none

/-- The number that hexadecimal digits write. -/
def hexNumber? (digits : List Char) : Option Nat :=
  digits.foldlM (fun n digit => (hexValue? digit).map (n * 16 + ·)) 0

/-- What a character after a backslash stands for, if it needs no more digits. -/
def escapedChar? : Char → Option Char
  | '0' => some '\x00'
  | 'a' => some '\x07'
  | 'b' => some '\x08'
  | 't' => some '\t'
  | '\t' => some '\t'
  | 'n' => some '\n'
  | 'v' => some '\x0b'
  | 'f' => some '\x0c'
  | 'r' => some '\r'
  | 'e' => some '\x1b'
  | ' ' => some ' '
  | '\x22' => some '\x22'
  | '/' => some '/'
  | '\\' => some '\\'
  | 'N' => some (Char.ofNat 0x85)
  | '_' => some (Char.ofNat 0xA0)
  | 'L' => some (Char.ofNat 0x2028)
  | 'P' => some (Char.ofNat 0x2029)
  | _ => none

/-- How many digits follow a character after a backslash. -/
def escapeDigits? : Char → Option Nat
  | 'x' => some 2
  | 'u' => some 4
  | 'U' => some 8
  | _ => none

/-- The character whose code point is written with exactly so many hexadecimal digits. -/
def charOfHex? (count : Nat) (digits : List Char) : Option Char := do
  let code ← hexNumber? digits
  if h : digits.length = count ∧ code.isValidChar then some (Char.ofNatAux code h.2) else none

/-- The character that an escape stands for, and the cursor after the escape. The cursor is given
after the backslash. -/
def takeEscape? (c : Cursor) : Option (Char × Cursor) := do
  let kind ← c.peek?
  match escapedChar? kind with
  | some char => some (char, c.skip)
  | none =>
    let count ← escapeDigits? kind
    let char ← charOfHex? count (c.skip.rest.take count)
    some (char, c.skip.skipMany count)

theorem length_takeEscape?_lt {c next : Cursor} {char : Char}
    (h : takeEscape? c = some (char, next)) : next.rest.length < c.rest.length := by
  obtain ⟨_ | ⟨kind, rest⟩, offset, line, column⟩ := c
  · simp [takeEscape?, Cursor.peek?] at h
  · simp only [takeEscape?, Cursor.peek?, List.head?_cons, Option.bind_eq_bind,
      Option.bind_some] at h
    split at h
    · simp only [Option.some.injEq, Prod.mk.injEq] at h
      simp [← h.2, Cursor.skip]
    · simp only [Option.bind_eq_some_iff, Option.some.injEq, Prod.mk.injEq] at h
      obtain ⟨count, _, _, _, _, hnext⟩ := h
      simp only [← hnext, Cursor.skipMany, Cursor.skip, List.tail_cons, List.length_drop,
        List.length_cons]
      omega

/-- The rest of a scalar up to its closing quote, and the cursor after the quote. -/
def takeQuoted (quote : Char) (c : Cursor) : Option (List Char × Cursor) :=
  match _hrest : c.rest with
  | [] => none
  | char :: rest =>
    if c.atSeparator then none
    else if _hgap : (isSpace char || isBreak char) = true then
      match _htake : Gap.take (fun _ _ => false) .none c with
      | none => none
      | some (gap, next) =>
        (takeQuoted quote next).map fun (text, last) => (gap.joined ++ text, last)
    else if char == quote then
      if quote == '\x27' && rest.head? == some '\x27' then
        (takeQuoted quote (c.skipMany 2)).map fun (text, last) => ('\x27' :: text, last)
      else some ([], c.skip)
    else if quote == '\x22' && char == '\\' then
      if rest.head?.any isBreak then
        match _htake : Gap.take (fun _ _ => false) .escaped c.skip.takeBreak.2 with
        | none => none
        | some (gap, next) =>
          (takeQuoted quote next).map fun (text, last) => (gap.joined ++ text, last)
      else
        match _hescape : takeEscape? c.skip with
        | none => none
        | some (char, next) =>
          (takeQuoted quote next).map fun (text, last) => (char :: text, last)
    else (takeQuoted quote c.skip).map fun (text, last) => (char :: text, last)
termination_by c.rest.length
decreasing_by
  · exact Gap.length_take_lt _hrest _hgap _htake
  · simp only [Cursor.skipMany, _hrest, List.length_drop, List.length_cons]
    omega
  · have hle := Nat.le_trans (Gap.length_take_le _htake) c.skip.length_takeBreak_le
    simp only [Cursor.skip, _hrest, List.tail_cons, List.length_cons] at hle ⊢
    omega
  · have hlt := length_takeEscape?_lt _hescape
    simp only [Cursor.skip, _hrest, List.tail_cons, List.length_cons] at hlt ⊢
    omega
  · simp [Cursor.skip, _hrest]

end Rebuild.Yaml
