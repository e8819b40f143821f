import Rebuild.Glob.Pattern

/-!
# Matching a path

Matching follows the tokens. A star may take any run of characters without a slash, so what is left
to match is one of the remainders of the path up to the next slash; two stars take nothing or
everything up to and with some slash. A pattern ending in two stars selects all that is left. No
token but a literal slash and the two stars ever takes a slash.

To follow one remainder after the other would take a time that doubles with every star. So the
question is answered for all remainders of the path at once, from the last token to the first: where
a token can start depends only on where the tokens after it can. `selects_eq_matchTokens` says that
both come to the same.
-/

namespace Rebuild.Glob

/-- Whether a class member covers a character. -/
def Member.covers (c : Char) : Member → Bool
  | single d => c == d
  | range first last => first ≤ c && c ≤ last

/-- Whether a token that stands for one character may stand for this one. -/
def Token.accepts (c : Char) : Token → Bool
  | literal d => c == d
  | anyChar => c != '/'
  | oneOf members => c != '/' && members.any (·.covers c)
  | noneOf members => c != '/' && !members.any (·.covers c)
  | anyRun => false
  | anyDirectories => false

/-- What may be left of a text once a run without a slash is taken from its front. -/
def remainders : List Char → List (List Char)
  | [] => [[]]
  | c :: rest => (c :: rest) :: (if c = '/' then [] else remainders rest)

/-- What may be left of a text once everything up to and with some slash is taken from its front. -/
def afterSlashes : List Char → List (List Char)
  | [] => []
  | c :: rest => if c = '/' then rest :: afterSlashes rest else afterSlashes rest

/-- Whether tokens match a whole text. -/
def matchTokens : List Token → List Char → Bool
  | [], text => text.isEmpty
  | .anyRun :: tokens, text => (remainders text).any (matchTokens tokens)
  | .anyDirectories :: tokens, text =>
    tokens.isEmpty || (text :: afterSlashes text).any (matchTokens tokens)
  | _ :: _, [] => false
  | token :: tokens, c :: text => token.accepts c && matchTokens tokens text

/-- The answers to a question about each remainder of a text, the whole text first. -/
def atRemainders (question : List Char → Bool) : List Char → List Bool
  | [] => [question []]
  | c :: text => question (c :: text) :: atRemainders question text

/-- Where a token for one character can start, before tokens that start at the given places. -/
def Token.starts (token : Token) : List Char → List Bool → List Bool
  | c :: text, _ :: later => (token.accepts c && later.headD false) :: token.starts text later
  | _, _ => [false]

/-- Where a run without a slash can start, before tokens that start at the given places. -/
def runStarts : List Char → List Bool → List Bool
  | c :: text, here :: later =>
    let starts := runStarts text later
    (here || (c ≠ '/' && starts.headD false)) :: starts
  | _, later => later

/-- Where a text up to and with some slash can start, before tokens that start at the given places.
-/
def slashStarts : List Char → List Bool → List Bool
  | c :: text, _ :: later =>
    let starts := slashStarts text later
    ((c = '/' && later.headD false) || starts.headD false) :: starts
  | _, _ => [false]

/-- Where tokens can start in a text so that they match all that is left of it. -/
def matchStarts : List Token → List Char → List Bool
  | [], text => atRemainders List.isEmpty text
  | .anyRun :: tokens, text => runStarts text (matchStarts tokens text)
  | [.anyDirectories], text => atRemainders (fun _ => true) text
  | .anyDirectories :: tokens, text =>
    let starts := matchStarts tokens text
    List.zipWith (· || ·) starts (slashStarts text starts)
  | token :: tokens, text => token.starts text (matchStarts tokens text)

/-- Whether a pattern selects a path. -/
def Pattern.selects (pattern : Pattern) (path : String) : Bool :=
  (matchStarts pattern.tokens path.toList).headD false

theorem headD_atRemainders (question : List Char → Bool) (text : List Char) :
    (atRemainders question text).headD false = question text := by
  cases text <;> rfl

theorem starts_atRemainders (token : Token) (question : List Char → Bool) (text : List Char) :
    token.starts text (atRemainders question text) =
      atRemainders (fun
        | [] => false
        | c :: rest => token.accepts c && question rest) text := by
  induction text with
  | nil => rfl
  | cons c text ih => simp only [atRemainders, Token.starts, headD_atRemainders, ih]

theorem runStarts_atRemainders (question : List Char → Bool) (text : List Char) :
    runStarts text (atRemainders question text) =
      atRemainders (fun rest => (remainders rest).any question) text := by
  induction text with
  | nil => simp [atRemainders, runStarts, remainders]
  | cons c text ih =>
    simp only [atRemainders, runStarts, headD_atRemainders, ih, remainders, List.any_cons]
    by_cases hslash : c = '/' <;> simp [hslash]

theorem slashStarts_atRemainders (question : List Char → Bool) (text : List Char) :
    slashStarts text (atRemainders question text) =
      atRemainders (fun rest => (afterSlashes rest).any question) text := by
  induction text with
  | nil => rfl
  | cons c text ih =>
    simp only [atRemainders, slashStarts, headD_atRemainders, ih, afterSlashes]
    by_cases hslash : c = '/' <;> simp [hslash]

theorem zipWith_atRemainders (left right : List Char → Bool) (text : List Char) :
    List.zipWith (· || ·) (atRemainders left text) (atRemainders right text) =
      atRemainders (fun rest => left rest || right rest) text := by
  induction text with
  | nil => rfl
  | cons c text ih => simp only [atRemainders, List.zipWith_cons_cons, ih]

theorem matchStarts_eq_atRemainders (tokens : List Token) (text : List Char) :
    matchStarts tokens text = atRemainders (matchTokens tokens) text := by
  fun_induction matchStarts tokens text with
  | case1 => rfl
  | case2 tokens text ih => rw [ih, runStarts_atRemainders]; rfl
  | case3 => rfl
  | case4 tokens text hmore starts ih =>
    have hempty : tokens.isEmpty = false := List.isEmpty_eq_false_iff.2 hmore
    simp only [starts, ih, slashStarts_atRemainders, zipWith_atRemainders]
    congr
    funext rest
    simp [matchTokens, hempty]
  | case5 token tokens text hrun _ hdirectories ih =>
    rw [ih, starts_atRemainders]
    congr
    funext rest
    cases rest <;> simp [matchTokens]

/-- Where the tokens of a pattern can start at the front of a path, they match the path. -/
theorem selects_eq_matchTokens (pattern : Pattern) (path : String) :
    pattern.selects path = matchTokens pattern.tokens path.toList := by
  rw [Pattern.selects, matchStarts_eq_atRemainders, headD_atRemainders]

end Rebuild.Glob
