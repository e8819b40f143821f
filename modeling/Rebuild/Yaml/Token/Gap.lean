import Rebuild.Yaml.Cursor

/-!
# Gaps inside scalars

A scalar may go on over several lines. The spaces between two words of one line belong to the text.
Where a line ends, they do not: one break between two words becomes a space, and of several breaks
the first is dropped. Breaks that are Unicode separators are kept.
-/

namespace Rebuild.Yaml

/-- Spaces, then line breaks: the first one, if there is any, and the others. The spaces and the
other breaks are kept with the last one first. -/
structure Gap where
  spaces : List Char
  first : Option (List Char)
  others : List Char

namespace Gap

/-- No gap. -/
def none : Gap := ⟨[], Option.none, []⟩

/-- A gap with a line break that leaves nothing behind. -/
def escaped : Gap := ⟨[], some [], []⟩

/-- Whether a line ends in the gap. -/
def hasBreak (gap : Gap) : Bool := gap.first.isSome

/-- What the gap leaves in the text. -/
def joined (gap : Gap) : List Char :=
  match gap.first with
  | Option.none => gap.spaces.reverse
  | some ['\n'] => if gap.others.isEmpty then [' '] else gap.others.reverse
  | some first => first ++ gap.others.reverse

/-- Takes spaces and line breaks, on top of a gap that was taken before. Whether a space is refused
may depend on the cursor and on the gap up to there. -/
def take (refuses : Cursor → Gap → Bool) (gap : Gap) (c : Cursor) : Option (Gap × Cursor) :=
  match _hrest : c.rest with
  | [] => some (gap, c)
  | char :: _ =>
    if isSpace char then
      if refuses c gap then Option.none
      else take refuses
        (if gap.hasBreak then gap else { gap with spaces := char :: gap.spaces }) c.skip
    else if _hbreak : isBreak char then
      let newline := c.takeBreak.1
      take refuses
        (if gap.hasBreak then { gap with others := newline.reverse ++ gap.others }
          else ⟨[], some newline, []⟩) c.takeBreak.2
    else some (gap, c)
termination_by c.rest.length
decreasing_by
  · simp [Cursor.skip, _hrest]
  · have hpeek : c.peek? = some char := by simp [Cursor.peek?, _hrest]
    exact Cursor.length_takeBreak_lt hpeek _hbreak

theorem length_take_le {refuses : Cursor → Gap → Bool} {gap taken : Gap} {c next : Cursor}
    (h : take refuses gap c = some (taken, next)) : next.rest.length ≤ c.rest.length := by
  fun_induction take refuses gap c with
  | case1 gap c hrest => simp_all
  | case2 => simp at h
  | case3 gap c char rest hrest hspace hrefuses ih =>
    have hle := ih h
    simp only [Cursor.skip, hrest, List.tail_cons, List.length_cons] at hle ⊢
    omega
  | case4 gap c char rest hrest hspace hbreak newline ih =>
    exact Nat.le_trans (ih h) c.length_takeBreak_le
  | case5 => simp_all

theorem length_take_lt {refuses : Cursor → Gap → Bool} {gap taken : Gap} {c next : Cursor}
    {char : Char} {rest : List Char} (hrest : c.rest = char :: rest)
    (hchar : (isSpace char || isBreak char) = true) (h : take refuses gap c = some (taken, next)) :
    next.rest.length < c.rest.length := by
  unfold take at h
  split at h
  · simp_all
  · rename_i first others hfirst
    obtain ⟨rfl, rfl⟩ := List.cons.inj (hfirst.symm.trans hrest)
    split at h
    · split at h
      · simp at h
      · have hle := length_take_le h
        simp only [Cursor.skip, hrest, List.tail_cons] at hle
        simp only [hrest, List.length_cons]
        omega
    · split at h
      · rename_i hbreak
        have hpeek : c.peek? = some first := by simp [Cursor.peek?, hrest]
        exact Nat.lt_of_le_of_lt (length_take_le h) (Cursor.length_takeBreak_lt hpeek hbreak)
      · simp_all

end Gap

end Rebuild.Yaml
