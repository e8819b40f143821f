import Rebuild.Yaml.Token.Gap

/-!
# Plain scalars

A plain scalar has no quotes, so what ends it must be seen in the text: a colon or a number sign
beside a space, a line that is not indented far enough or that separates documents, and within
brackets also the punctuation of lists and maps.
-/

namespace Rebuild.Yaml

/-- The punctuation of lists and maps in brackets. -/
def isFlowPunctuation (c : Char) : Bool :=
  c == ',' || c == '[' || c == ']' || c == '\x7b' || c == '\x7d'

/-- A run of characters without a gap. Within brackets a colon must not be followed by punctuation.
-/
def takeRun (inFlow : Bool) (c : Cursor) : Option (List Char × Cursor) :=
  match _hrest : c.rest with
  | [] => some ([], c)
  | char :: rest =>
    if isSpace char || isBreak char then some ([], c)
    else if inFlow && char == ':' && (rest.head?.any fun n => isFlowPunctuation n || n == '?') then
      none
    else if (char == ':' && c.gapAt 1) || (inFlow && isFlowPunctuation char) then some ([], c)
    else do
      let (run, next) ← takeRun inFlow c.skip
      some (char :: run, next)
termination_by c.rest.length
decreasing_by simp [Cursor.skip, _hrest]

theorem length_takeRun_le {inFlow : Bool} {c next : Cursor} {run : List Char}
    (h : takeRun inFlow c = some (run, next)) : next.rest.length ≤ c.rest.length := by
  fun_induction takeRun inFlow c generalizing run with
  | case1 | case2 | case4 => simp_all
  | case3 => simp at h
  | case5 c char rest hrest _ _ _ ih =>
    obtain ⟨⟨run, next⟩, htake, heq⟩ := Option.bind_eq_some_iff.1 h
    obtain ⟨-, rfl⟩ := Prod.mk.inj (Option.some.inj heq)
    have hle := ih htake
    simp only [Cursor.skip, hrest, List.tail_cons, List.length_cons] at hle ⊢
    omega

/-- The rest of a plain scalar after a gap, whether line breaks follow it, and the cursor after
those. Outside of brackets its lines are indented by so many columns. -/
def takePlain (inFlow : Bool) (indent : Nat) (gap : Gap) (c : Cursor) :
    Option (List Char × Bool × Cursor) :=
  if c.atSeparator || c.at? '#' then some ([], gap.hasBreak, c)
  else
    match _hrun : takeRun inFlow c with
    | none => none
    | some (run, afterRun) =>
      let text := if run.isEmpty then [] else gap.joined ++ run
      let gap := if run.isEmpty then gap else .none
      match _hrest : afterRun.rest with
      | [] => some (text, gap.hasBreak, afterRun)
      | char :: _ =>
        if _hgap : (isSpace char || isBreak char) = true then
          match _htake : Gap.take
              (fun c gap => gap.hasBreak && c.column < indent && c.at? '\t') gap afterRun with
          | none => none
          | some (gap, next) =>
            if !inFlow && next.column < indent then some (text, gap.hasBreak, next)
            else
              (takePlain inFlow indent gap next).map fun (more, endsLine, last) =>
                (text ++ more, endsLine, last)
        else some (text, gap.hasBreak, afterRun)
termination_by c.rest.length
decreasing_by
  exact Nat.lt_of_lt_of_le (Gap.length_take_lt _hrest _hgap _htake) (length_takeRun_le _hrun)

end Rebuild.Yaml
