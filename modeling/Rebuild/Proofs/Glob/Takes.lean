import Mathlib.Data.List.Basic
import Rebuild.Glob.Selection
import Rebuild.Proofs.Reading

/-!
# What each token takes of a path

A pattern matches a path by dividing it: each token takes a part, and the parts follow each other.
Which parts a token can take is a matter of the token alone, except that two stars at the end of a
pattern take all that is left. So matching is described by one rule for the first token of several,
and proofs about patterns need not go through the remainders of a path.
-/

namespace Rebuild.Glob

variable {token : Token} {tokens : List Token} {text rest : List Char}

/-- A part of a path that a token can take. -/
def Token.Takes : Token → List Char → Prop
  | .anyRun, part => '/' ∉ part
  | .anyDirectories, part => part = [] ∨ ∃ front, part = front ++ ['/']
  | token, part => ∃ c, part = [c] ∧ token.accepts c = true

theorem mem_remainders_iff : rest ∈ remainders text ↔ ∃ run, '/' ∉ run ∧ run ++ rest = text := by
  induction text with
  | nil => simp [remainders]
  | cons c text ih =>
    rw [remainders, List.mem_cons]
    constructor
    · rintro (rfl | hrest)
      · exact ⟨[], List.not_mem_nil, rfl⟩
      · split at hrest
        case isTrue => cases hrest
        case isFalse hslash =>
          obtain ⟨run, hrun, rfl⟩ := ih.1 hrest
          exact ⟨c :: run, List.not_mem_cons_of_ne_of_not_mem (Ne.symm hslash) hrun, rfl⟩
    · rintro ⟨run, hrun, heq⟩
      cases run with
      | nil => exact Or.inl heq
      | cons d run =>
        obtain ⟨rfl, rfl⟩ := List.cons.inj heq
        rw [if_neg (Ne.symm (List.ne_of_not_mem_cons hrun))]
        exact Or.inr (ih.2 ⟨run, List.not_mem_of_not_mem_cons hrun, rfl⟩)

theorem mem_afterSlashes_iff : rest ∈ afterSlashes text ↔ ∃ front, front ++ '/' :: rest = text := by
  induction text with
  | nil => simp [afterSlashes]
  | cons c text ih =>
    have hcons : (∃ front, front ++ '/' :: rest = c :: text) ↔
        (c = '/' ∧ rest = text) ∨ rest ∈ afterSlashes text := by
      rw [ih]
      constructor
      · rintro ⟨front, heq⟩
        cases front with
        | nil =>
          obtain ⟨rfl, rfl⟩ := List.cons.inj heq
          exact Or.inl ⟨rfl, rfl⟩
        | cons d front => exact Or.inr ⟨front, (List.cons.inj heq).2⟩
      · rintro (⟨rfl, rfl⟩ | ⟨front, rfl⟩)
        · exact ⟨[], rfl⟩
        · exact ⟨c :: front, rfl⟩
    rw [hcons, afterSlashes]
    split
    case isTrue hslash => simp [hslash]
    case isFalse hslash => simp [hslash]

/-- A token that stands for one character. -/
structure Token.IsSingle (token : Token) : Prop where
  ne_anyRun : token ≠ .anyRun
  ne_anyDirectories : token ≠ .anyDirectories

namespace Token.IsSingle

theorem takes_iff (h : token.IsSingle) {part : List Char} :
    token.Takes part ↔ ∃ c, part = [c] ∧ token.accepts c = true := by
  cases token with
  | anyRun => exact absurd rfl h.ne_anyRun
  | anyDirectories => exact absurd rfl h.ne_anyDirectories
  | _ => exact Iff.rfl

theorem matchTokens_nil (h : token.IsSingle) : matchTokens (token :: tokens) [] = false := by
  cases token with
  | anyRun => exact absurd rfl h.ne_anyRun
  | anyDirectories => exact absurd rfl h.ne_anyDirectories
  | _ => rfl

theorem matchTokens_cons (h : token.IsSingle) (c : Char) (rest : List Char) :
    matchTokens (token :: tokens) (c :: rest) = (token.accepts c && matchTokens tokens rest) := by
  cases token with
  | anyRun => exact absurd rfl h.ne_anyRun
  | anyDirectories => exact absurd rfl h.ne_anyDirectories
  | _ => rfl

end Token.IsSingle

/-- The first of several tokens takes a part, and the others match what is left. -/
theorem matchTokens_cons_iff (h : token = .anyDirectories → tokens ≠ []) :
    matchTokens (token :: tokens) text = true ↔
      ∃ part rest, part ++ rest = text ∧ token.Takes part ∧ matchTokens tokens rest = true := by
  by_cases hrun : token = .anyRun
  · rw [hrun, matchTokens, List.any_eq_true]
    simp only [mem_remainders_iff, Token.Takes]
    constructor
    · rintro ⟨rest, ⟨run, hfree, rfl⟩, hrest⟩
      exact ⟨run, rest, rfl, hfree, hrest⟩
    · rintro ⟨run, rest, rfl, hfree, hrest⟩
      exact ⟨rest, ⟨run, hfree, rfl⟩, hrest⟩
  · by_cases hdirectories : token = .anyDirectories
    · rw [hdirectories, matchTokens, List.isEmpty_eq_false_iff.2 (h hdirectories), Bool.false_or,
        List.any_eq_true]
      simp only [List.mem_cons, mem_afterSlashes_iff, Token.Takes]
      constructor
      · rintro ⟨rest, rfl | ⟨front, rfl⟩, hrest⟩
        · exact ⟨[], rest, rfl, Or.inl rfl, hrest⟩
        · exact ⟨front ++ ['/'], rest, by simp, Or.inr ⟨front, rfl⟩, hrest⟩
      · rintro ⟨part, rest, rfl, rfl | ⟨front, rfl⟩, hrest⟩
        · exact ⟨rest, Or.inl rfl, hrest⟩
        · exact ⟨rest, Or.inr ⟨front, by simp⟩, hrest⟩
    · have hsingle : token.IsSingle := ⟨hrun, hdirectories⟩
      simp only [hsingle.takes_iff]
      constructor
      · intro hmatch
        cases text with
        | nil =>
          rw [hsingle.matchTokens_nil] at hmatch
          cases hmatch
        | cons c rest =>
          rw [hsingle.matchTokens_cons, Bool.and_eq_true] at hmatch
          exact ⟨[c], rest, rfl, ⟨c, rfl, hmatch.1⟩, hmatch.2⟩
      · rintro ⟨part, rest, rfl, ⟨c, rfl, haccepts⟩, hrest⟩
        rw [List.singleton_append, hsingle.matchTokens_cons, haccepts, hrest]
        rfl

/-! ### Selections -/

theorem compile_eq_ok_iff {includes excludes : List String} {selection : Selection} :
    Selection.compile includes excludes = .ok selection ↔
      includes.mapM Pattern.compile = .ok selection.includes ∧
      excludes.mapM Pattern.compile = .ok selection.excludes := by
  rw [Selection.compile, bind_eq_ok_iff]
  simp only [bind_eq_ok_iff]
  constructor
  · rintro ⟨compiled, hincludes, others, hexcludes, heq⟩
    obtain rfl := Except.ok.inj heq
    exact ⟨hincludes, hexcludes⟩
  · rintro ⟨hincludes, hexcludes⟩
    exact ⟨_, hincludes, _, hexcludes, rfl⟩

theorem mapM_compile_singleton {pattern : String} {compiled : Pattern}
    (h : Pattern.compile pattern = .ok compiled) :
    [pattern].mapM Pattern.compile = .ok [compiled] :=
  mapM_eq_ok_iff.2 (congrArg List.singleton h)

theorem compile_single_eq_ok_iff {pattern : String} {selection : Selection} :
    Selection.compile [pattern] [] = .ok selection ↔
      ∃ compiled, Pattern.compile pattern = .ok compiled ∧ selection = ⟨[compiled], []⟩ := by
  rw [compile_eq_ok_iff]
  constructor
  · rintro ⟨hincludes, hexcludes⟩
    obtain ⟨compiled, -, hpattern⟩ := exists_of_mem_of_mapM hincludes List.mem_cons_self
    refine ⟨compiled, hpattern, ?_⟩
    obtain ⟨includes, excludes⟩ := selection
    obtain rfl := Except.ok.inj ((mapM_compile_singleton hpattern).symm.trans hincludes)
    obtain rfl := Except.ok.inj hexcludes
    rfl
  · rintro ⟨compiled, hpattern, rfl⟩
    exact ⟨mapM_compile_singleton hpattern, rfl⟩

theorem selects_single (compiled : Pattern) (path : String) :
    Selection.selects ⟨[compiled], []⟩ path = compiled.selects path := by
  simp [Selection.selects]

end Rebuild.Glob
