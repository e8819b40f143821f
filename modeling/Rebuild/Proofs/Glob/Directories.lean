import Mathlib.Data.List.Forall2
import Rebuild.Proofs.Glob.Takes

/-!
# Wildcards stay in their directory

Only a slash of the pattern takes a slash of the path, and two stars do. A class may list the slash,
or leave it out of the characters that it forbids, and does not take it all the same. So if a pattern
without two stars matches a path, each slash of the path is taken by one of the slashes that stand in
the pattern outside of its classes, and by a different one.
-/

namespace Rebuild.Glob

variable {token : Token} {tokens : List Token} {text part rest after : List Char}
  {parts : List (List Char)}

/-! ### The slashes of a path -/

theorem eq_literal_of_accepts_slash (h : token.accepts '/' = true) : token = .literal '/' := by
  cases token with
  | literal d =>
    rw [Token.accepts, beq_iff_eq] at h
    rw [h]
  | _ => simp [Token.accepts] at h

/-- A token takes a part, and does not cross into another directory unless it is a slash. -/
structure Token.TakesWithin (token : Token) (part : List Char) : Prop where
  takes : token.Takes part
  slash_notMem : token ≠ .literal '/' → '/' ∉ part

theorem Token.Takes.within (h : token.Takes part) (hplain : token ≠ .anyDirectories) :
    token.TakesWithin part := by
  refine ⟨h, fun hslash => ?_⟩
  by_cases hrun : token = .anyRun
  · rw [hrun] at h
    exact h
  · have hsingle : token.IsSingle := ⟨hrun, hplain⟩
    obtain ⟨c, rfl, haccepts⟩ := hsingle.takes_iff.1 h
    rw [List.mem_singleton]
    rintro rfl
    exact hslash (eq_literal_of_accepts_slash haccepts)

theorem Token.TakesWithin.count_slash (h : token.TakesWithin part) :
    part.count '/' = if token = .literal '/' then 1 else 0 := by
  split
  case isTrue hslash =>
    have htakes := h.takes
    rw [hslash] at htakes
    obtain ⟨c, rfl, haccepts⟩ := htakes
    rw [Token.accepts, beq_iff_eq] at haccepts
    rw [haccepts, List.count_singleton_self]
  case isFalse hslash => exact List.count_eq_zero_of_not_mem (h.slash_notMem hslash)

theorem exists_parts (hplain : .anyDirectories ∉ tokens) (h : matchTokens tokens text = true) :
    ∃ parts, List.Forall₂ Token.TakesWithin tokens parts ∧ parts.flatten = text := by
  induction tokens generalizing text with
  | nil => exact ⟨[], .nil, (List.isEmpty_iff.1 h).symm⟩
  | cons token tokens ih =>
    have hfirst : token ≠ .anyDirectories := Ne.symm (List.ne_of_not_mem_cons hplain)
    obtain ⟨part, rest, rfl, htakes, hrest⟩ :=
      (matchTokens_cons_iff fun heq => absurd heq hfirst).1 h
    obtain ⟨parts, hparts, rfl⟩ := ih (List.not_mem_of_not_mem_cons hplain) hrest
    exact ⟨part :: parts, .cons (htakes.within hfirst) hparts, List.flatten_cons⟩

theorem count_slash_flatten (h : List.Forall₂ Token.TakesWithin tokens parts) :
    parts.flatten.count '/' = tokens.count (.literal '/') := by
  induction h with
  | nil => rfl
  | @cons token part tokens parts htakes _ ih =>
    rw [List.flatten_cons, List.count_append, List.count_cons, ih, htakes.count_slash, Nat.add_comm]
    simp only [beq_iff_eq]

/-! ### The slashes of a pattern -/

/-- What follows a class, from behind its opening bracket on. A class ends with the first closing
bracket that comes after its first member. -/
def afterClass : List Char → List Char
  | '!' :: _ :: members => (members.dropWhile (· ≠ ']')).tail
  | _ :: members => (members.dropWhile (· ≠ ']')).tail
  | [] => []

theorem afterClass_suffix (text : List Char) : afterClass text <:+ text := by
  have hend : ∀ members : List Char, (members.dropWhile (· ≠ ']')).tail <:+ members :=
    fun members => (List.tail_suffix _).trans (List.dropWhile_suffix _)
  unfold afterClass
  split
  case h_1 c members => exact (hend members).trans (List.suffix_append ['!', c] members)
  case h_2 c members _ => exact (hend members).trans (List.suffix_cons c members)
  case h_3 => exact List.suffix_refl []

/-- The characters of a pattern that stand outside of its classes. -/
def unclassed : List Char → List Char
  | [] => []
  | c :: rest => if c = '[' then unclassed (afterClass rest) else c :: unclassed rest
termination_by text => text.length
decreasing_by
  · exact Nat.lt_succ_of_le (afterClass_suffix rest).length_le
  · exact Nat.lt_succ_self _

theorem unclassed_cons_of_ne {c : Char} (h : c ≠ '[') :
    unclassed (c :: rest) = c :: unclassed rest := by
  rw [unclassed, if_neg h]

theorem unclassed_class : unclassed ('[' :: rest) = unclassed (afterClass rest) := by
  rw [unclassed, if_pos rfl]

theorem eq_tail_of_closeClass? {members : List Member} (h : closeClass? text = some (members, after)) :
    ∃ first others, text = first :: others ∧ after = (others.dropWhile (· ≠ ']')).tail := by
  cases text with
  | nil => cases h
  | cons first others =>
    refine ⟨first, others, rfl, ?_⟩
    rw [closeClass?] at h
    split at h
    case h_1 => cases h
    case h_2 c rest hdrop =>
      rw [hdrop, List.tail_cons]
      exact (congrArg Prod.snd (Option.some.inj h)).symm

/-- A class is read up to its end, and becomes a token that is no slash and no stars. -/
theorem of_readClass? (h : readClass? text = some (token, after)) :
    after = afterClass text ∧ ∃ members, token = .oneOf members ∨ token = .noneOf members := by
  unfold readClass? at h
  split at h
  case h_1 members =>
    obtain ⟨⟨listed, rest⟩, hclose, heq⟩ := Option.map_eq_some_iff.1 h
    obtain ⟨rfl, rfl⟩ := Prod.mk.inj heq
    obtain ⟨first, others, rfl, hafter⟩ := eq_tail_of_closeClass? hclose
    exact ⟨hafter, listed, Or.inr rfl⟩
  case h_2 hbang =>
    obtain ⟨⟨listed, rest⟩, hclose, heq⟩ := Option.map_eq_some_iff.1 h
    obtain ⟨rfl, rfl⟩ := Prod.mk.inj heq
    obtain ⟨first, others, rfl, hafter⟩ := eq_tail_of_closeClass? hclose
    refine ⟨?_, listed, Or.inl rfl⟩
    rw [hafter, afterClass]
    rintro c members rfl rfl
    exact hbang _ rfl

/-- There are no two stars among tokens, and they have as many slashes as a text has outside of its
classes. -/
structure SlashesOf (tokens : List Token) (text : List Char) : Prop where
  plain : .anyDirectories ∉ tokens
  count_eq : tokens.count (.literal '/') = (unclassed text).count '/'

namespace SlashesOf

theorem nil : SlashesOf [] [] where
  plain := List.not_mem_nil
  count_eq := by rw [unclassed, List.count_nil, List.count_nil]

theorem cons {c : Char} (h : SlashesOf tokens rest) (hplain : token ≠ .anyDirectories)
    (hc : c ≠ '[') (hslash : token = .literal '/' ↔ c = '/') :
    SlashesOf (token :: tokens) (c :: rest) where
  plain := List.not_mem_cons_of_ne_of_not_mem (Ne.symm hplain) h.plain
  count_eq := by
    rw [unclassed_cons_of_ne hc, List.count_cons, List.count_cons, h.count_eq]
    simp only [beq_iff_eq, hslash]

theorem cons_class (h : SlashesOf tokens after) (hclass : readClass? rest = some (token, after)) :
    SlashesOf (token :: tokens) ('[' :: rest) := by
  obtain ⟨rfl, members, htoken⟩ := of_readClass? hclass
  have hplain : token ≠ .anyDirectories := by rcases htoken with rfl | rfl <;> simp
  have hslash : token ≠ .literal '/' := by rcases htoken with rfl | rfl <;> simp
  refine ⟨List.not_mem_cons_of_ne_of_not_mem (Ne.symm hplain) h.plain, ?_⟩
  rw [unclassed_class, List.count_cons_of_ne hslash, h.count_eq]

end SlashesOf

/-- A pattern without two stars becomes tokens with the slashes that stand outside of its classes. -/
theorem slashesOf_readTokens {position : Nat} {atComponent : Bool}
    (h : readTokens position atComponent text = .ok tokens) (hstars : ¬ ['*', '*'] <:+: text) :
    SlashesOf tokens text := by
  have hlater : ∀ {rest text : List Char}, ¬ ['*', '*'] <:+: text → rest <:+ text →
      ¬ ['*', '*'] <:+: rest :=
    fun hstars hrest hfound => hstars (hfound.trans hrest.isInfix)
  have htwo : ∀ rest : List Char, ['*', '*'] <:+: '*' :: '*' :: rest :=
    fun rest => (List.prefix_append ['*', '*'] rest).isInfix
  fun_induction readTokens position atComponent text generalizing tokens with
  | case1 =>
    obtain rfl := Except.ok.inj h
    exact .nil
  | case2 position atComponent rest ih =>
    obtain ⟨later, hread, rfl⟩ := map_eq_ok_iff.1 h
    exact (ih hread (hlater hstars (List.suffix_cons _ rest))).cons (by simp) (by decide) (by simp)
  | case3 | case6 | case7 | case10 => cases h
  -- Two stars that are a component of their own compile, and only they are excluded by `hstars`.
  | case4 | case5 => exact absurd (htwo _) hstars
  | case8 position atComponent rest _ _ ih =>
    obtain ⟨later, hread, rfl⟩ := map_eq_ok_iff.1 h
    exact (ih hread (hlater hstars (List.suffix_cons _ rest))).cons (by simp) (by decide) (by simp)
  | case9 position atComponent rest token after hclass ih =>
    obtain ⟨later, hread, rfl⟩ := map_eq_ok_iff.1 h
    have hafter : after <:+ '[' :: rest := by
      rw [(of_readClass? hclass).1]
      exact (afterClass_suffix rest).trans (List.suffix_cons _ rest)
    exact (ih hread (hlater hstars hafter)).cons_class hclass
  | case11 position atComponent c rest _ _ _ _ hbracket ih =>
    obtain ⟨later, hread, rfl⟩ := map_eq_ok_iff.1 h
    exact (ih hread (hlater hstars (List.suffix_cons c rest))).cons (by simp) hbracket (by simp)

/-! ### Main result -/

/-- A path that is selected by a pattern without two stars has as many slashes as the pattern has
outside of its classes. For the path is divided among the tokens so that only the slashes of the
pattern take slashes, and everything else takes a part of one directory. -/
theorem slashes_of_selects {pattern path : String} {selection : Selection}
    (hcompile : Selection.compile [pattern] [] = .ok selection)
    (hstars : ¬ ['*', '*'] <:+: pattern.toList) (hselects : selection.selects path = true) :
    path.toList.count '/' = (unclassed pattern.toList).count '/' ∧
    ∃ compiled parts, selection = ⟨[compiled], []⟩ ∧ parts.flatten = path.toList ∧
      List.Forall₂ Token.TakesWithin compiled.tokens parts := by
  obtain ⟨compiled, hpattern, rfl⟩ := compile_single_eq_ok_iff.1 hcompile
  rw [selects_single, selects_eq_matchTokens] at hselects
  obtain ⟨tokens, hread, rfl⟩ := map_eq_ok_iff.1 hpattern
  have hslashes := slashesOf_readTokens hread hstars
  obtain ⟨parts, hparts, hflatten⟩ := exists_parts hslashes.plain hselects
  constructor
  · rw [← hflatten, count_slash_flatten hparts, hslashes.count_eq]
  · exact ⟨_, parts, rfl, hflatten, hparts⟩

/-- Both classes would let a slash through, if it were not for being one. The slash in the first of
them is not a slash of the pattern, so the path has one; a path with two is not selected. -/
theorem slashes_of_class_and_range :
    let pattern := "[!a/]?/[+-9]*.java"
    ∃ selection, Selection.compile [pattern] [] = .ok selection ∧
      ¬ ['*', '*'] <:+: pattern.toList ∧ selection.selects "bc/5x.java" = true ∧
      "bc/5x.java".toList.count '/' = 1 ∧ (unclassed pattern.toList).count '/' = 1 ∧
      selection.selects "bc//x.java" = false := by
  intro pattern
  let compiled : Pattern := ⟨[.noneOf [.single 'a', .single '/'], .anyChar, .literal '/',
    .oneOf [.range '+' '9'], .anyRun, .literal '.', .literal 'j', .literal 'a', .literal 'v',
    .literal 'a']⟩
  let selection : Selection := ⟨[compiled], []⟩
  have hpattern : Pattern.compile pattern = .ok compiled := by
    apply eq_ok_of_toOption
    decide +kernel
  have hcompile : Selection.compile [pattern] [] = .ok selection :=
    compile_single_eq_ok_iff.2 ⟨compiled, hpattern, rfl⟩
  have hstars : ¬ ['*', '*'] <:+: pattern.toList := by decide +kernel
  have hselects : selection.selects "bc/5x.java" = true := by decide +kernel
  obtain ⟨hcount, -⟩ := slashes_of_selects hcompile hstars hselects
  have hone : "bc/5x.java".toList.count '/' = 1 := by decide +kernel
  refine ⟨selection, hcompile, hstars, hselects, hone, hcount ▸ hone, ?_⟩
  rw [← Bool.not_eq_true]
  intro hother
  obtain ⟨hcount', -⟩ := slashes_of_selects hcompile hstars hother
  rw [← hcount] at hcount'
  revert hcount'
  decide +kernel

end Rebuild.Glob
