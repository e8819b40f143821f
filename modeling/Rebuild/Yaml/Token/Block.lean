import Rebuild.Yaml.Cursor

/-!
# Block scalars

A block scalar is introduced by a bar or an angle, and its text is the indented lines that follow.
After a bar the lines are kept as they are; after an angle a single break between two lines that do
not start with a space becomes a space. How many columns belong to the indentation is said in the
introduction, or read off the first line with text. The introduction also says what becomes of the
breaks at the end: one is kept, or all, or none.
-/

namespace Rebuild.Yaml

/-- What becomes of the breaks at the end of a block scalar. -/
inductive Chomping where
  | clip
  | strip
  | keep
deriving DecidableEq

/-- What the introduction of a block scalar says. -/
structure BlockHeader where
  chomping : Chomping
  indent : Option Nat

/-- How a sign in the introduction chomps. -/
def chompingOf? (char : Option Char) : Option Chomping :=
  match char with
  | some '+' => some .keep
  | some '-' => some .strip
  | _ => none

/-- An indentation in the introduction; zero is refused. -/
def indentOf? (char : Option Char) : Option (Option Nat) :=
  match char with
  | some digit =>
    if digit == '0' then none
    else if digit.isDigit then some (some (digit.toNat - '0'.toNat))
    else some none
  | none => some none

/-- The introduction, and the cursor on the next line. -/
def takeBlockHeader? (c : Cursor) : Option (BlockHeader × Cursor) := do
  match chompingOf? c.peek? with
  | some chomping =>
    let indent ← indentOf? (c.peekAt? 1)
    let next ← (c.skipMany (if indent.isSome then 2 else 1)).finishLine?
    some (⟨chomping, indent⟩, next)
  | none =>
    let indent ← indentOf? c.peek?
    let c := if indent.isSome then c.skip else c
    match (if indent.isSome then chompingOf? c.peek? else none) with
    | some chomping => do
      let next ← c.skip.finishLine?
      some (⟨chomping, indent⟩, next)
    | none => do
      let next ← c.finishLine?
      some (⟨.clip, indent⟩, next)

/-- The spaces of a line that belong to the indentation: all of them, if it is not known how many
columns do. -/
def takeIndent (indent : Option Nat) (c : Cursor) : Cursor :=
  let spaces := (c.rest.takeWhile (· == ' ')).length
  c.skipMany (match indent with
    | some indent => min spaces (indent - c.column)
    | none => spaces)

/-- Past the lines without text. Gives their breaks, the greatest column that was reached, and the
cursor at the text of the next line. A tab in the indentation is refused. -/
def takeEmptyLines (indent : Option Nat) (deepest : Nat) (c : Cursor) :
    Option (List Char × Nat × Cursor) :=
  let text := takeIndent indent c
  let deepest := max deepest text.column
  if indent.all (text.column < ·) && text.at? '\t' then none
  else
    match _hpeek : text.peek? with
    | none => some ([], deepest, text)
    | some char =>
      if _hbreak : isBreak char then
        (takeEmptyLines indent deepest text.takeBreak.2).map fun (breaks, deepest, next) =>
          (text.takeBreak.1 ++ breaks, deepest, next)
      else some ([], deepest, text)
termination_by c.rest.length
decreasing_by
  exact Nat.lt_of_lt_of_le (Cursor.length_takeBreak_lt _hpeek _hbreak)
    (Cursor.length_skipMany_le _ _)

theorem length_takeEmptyLines_le {indent : Option Nat} {least deepest : Nat} {c next : Cursor}
    {breaks : List Char} (h : takeEmptyLines indent least c = some (breaks, deepest, next)) :
    next.rest.length ≤ c.rest.length := by
  fun_induction takeEmptyLines indent least c generalizing breaks with
  | case1 => simp at h
  | case2 | case4 =>
    simp only [Option.some.injEq, Prod.mk.injEq] at h
    obtain ⟨-, -, rfl⟩ := h
    exact Cursor.length_skipMany_le _ _
  | case3 deepest c text =>
    rename_i ih
    obtain ⟨⟨breaks, deepest, next⟩, htake, heq⟩ := Option.map_eq_some_iff.1 h
    simp only [Prod.mk.injEq] at heq
    obtain ⟨-, rfl, rfl⟩ := heq
    exact Nat.le_trans (ih htake) (Nat.le_trans text.length_takeBreak_le
      (Cursor.length_skipMany_le _ _))

/-- Past the line that starts here, without its end. -/
def takeLine (c : Cursor) : List Char × Cursor := c.takeWhile (!isBreak ·)

theorem length_takeLine_lt {c : Cursor} (h : c.rest ≠ []) :
    (takeLine c).2.takeBreak.2.rest.length < c.rest.length := by
  obtain ⟨char, rest, hrest⟩ := List.exists_cons_of_ne_nil h
  by_cases hbreak : isBreak char = true
  · have hline : (takeLine c).2.rest = c.rest := by
      simp [takeLine, Cursor.takeWhile, hrest, hbreak]
    have hpeek : (takeLine c).2.peek? = some char := by simp [Cursor.peek?, hline, hrest]
    rw [← hline]
    exact Cursor.length_takeBreak_lt hpeek hbreak
  · exact Nat.lt_of_le_of_lt (Cursor.length_takeBreak_le _)
      (Cursor.length_takeWhile_lt hrest (by simp [hbreak]))

/-- What stands between two lines of a block scalar: the break that ends the first one, the breaks
of the empty lines after it, and whether it starts with a space. -/
structure LineGap where
  newline : List Char
  empty : List Char
  spaced : Bool

/-- What is left of a gap at the end of a block scalar. -/
def LineGap.chomped (gap : LineGap) : Chomping → List Char
  | .strip => []
  | .clip => gap.newline
  | .keep => gap.newline ++ gap.empty

/-- What a gap leaves between two lines. -/
def LineGap.joined (gap : LineGap) (folded nextSpaced : Bool) : List Char :=
  if folded && gap.newline == ['\n'] && !gap.spaced && !nextSpaced then
    if gap.empty.isEmpty then [' '] else gap.empty
  else gap.newline ++ gap.empty

/-- The lines of a block scalar after a gap. The cursor is given behind the indentation. -/
def takeBlockLines (folded : Bool) (chomping : Chomping) (indent : Nat) (gap : LineGap)
    (c : Cursor) : Option (List Char × Cursor) :=
  if _hline : c.column = indent ∧ c.rest ≠ [] then
    let spaced := c.peek?.any isSpace
    match _htake : takeEmptyLines (some indent) 0 (takeLine c).2.takeBreak.2 with
    | none => none
    | some (empty, _, next) =>
      (takeBlockLines folded chomping indent ⟨(takeLine c).2.takeBreak.1, empty, spaced⟩ next).map
        fun (text, last) => (gap.joined folded spaced ++ (takeLine c).1 ++ text, last)
  else some (gap.chomped chomping, c)
termination_by c.rest.length
decreasing_by
  exact Nat.lt_of_le_of_lt (length_takeEmptyLines_le _htake) (length_takeLine_lt _hline.2)

/-- A block scalar, with the cursor after it. The cursor is given after the bar or angle; the block
that contains the scalar is indented by so many columns, if by any. -/
def takeBlock (folded : Bool) (outer : Option Nat) (c : Cursor) : Option (List Char × Cursor) := do
  let (header, c) ← takeBlockHeader? c
  let least := match outer with
    | some column => column + 1
    | none => 0
  let given := header.indent.map fun n => (outer.getD 0) + n
  let (empty, deepest, c) ← takeEmptyLines given 0 c
  let indent := given.getD (max (max deepest least) 1)
  takeBlockLines folded header.chomping indent ⟨[], empty, false⟩ c

end Rebuild.Yaml
