/-!
# Glob patterns

A pattern selects relative paths by their text. A question mark stands for one character and a star
for a run of characters, both within one directory; a class in brackets stands for one character
too. Two stars stand for any number of whole directories, so they must be a path component of their
own: nothing or a slash before them, a slash or nothing after them.

A pattern is compiled from left to right into tokens. What cannot be compiled is reported with the
position of the character that is to blame, counted in characters from zero.
-/

namespace Rebuild.Glob

/-- One member of a class: a character, or all characters from one to another. -/
inductive Member where
  | single (c : Char)
  | range (first last : Char)
deriving DecidableEq

/-- What one part of a pattern stands for. -/
inductive Token where
  | literal (c : Char)
  | anyChar
  | oneOf (members : List Member)
  | noneOf (members : List Member)
  | anyRun
  | anyDirectories
deriving DecidableEq

/-- Why a pattern cannot be compiled. -/
inductive Problem where
  | tooManyStars
  | partOfComponent
  | badClass
deriving DecidableEq

/-- The explanation of a problem. -/
def Problem.message : Problem → String
  | tooManyStars => "wildcards are either regular `*` or recursive `**`"
  | partOfComponent => "recursive wildcards must form a single path component"
  | badClass => "invalid range pattern"

/-- A problem and the position of the character that is to blame. -/
structure Fault where
  position : Nat
  problem : Problem
deriving DecidableEq

/-- The report of a fault. -/
def Fault.message (fault : Fault) : String :=
  s!"Pattern syntax error near position {fault.position}: {fault.problem.message}"

/-- The members that the text between two brackets lists. A hyphen between two characters makes a
range of them, and stands for itself elsewhere. -/
def readMembers : List Char → List Member
  | first :: '-' :: last :: rest => .range first last :: readMembers rest
  | c :: rest => .single c :: readMembers rest
  | [] => []

/-- The members of a class, and what follows its closing bracket, which is the first one after the
first member: a class has a member. -/
def closeClass? : List Char → Option (List Member × List Char)
  | [] => none
  | first :: others =>
    match others.dropWhile (· ≠ ']') with
    | [] => none
    | _ :: rest => some (readMembers (first :: others.takeWhile (· ≠ ']')), rest)

/-- The class that opens before a text, and what follows it. An exclamation mark in front takes all
characters that the class does not list. -/
def readClass? : List Char → Option (Token × List Char)
  | '!' :: members => (closeClass? members).map fun (members, rest) => (.noneOf members, rest)
  | members => (closeClass? members).map fun (members, rest) => (.oneOf members, rest)

theorem length_lt_of_closeClass? {text : List Char} {members : List Member} {rest : List Char}
    (h : closeClass? text = some (members, rest)) : rest.length < text.length := by
  cases text with
  | nil => cases h
  | cons first others =>
    have hle := (List.dropWhile_sublist (fun c : Char => decide (c ≠ ']')) (l := others)).length_le
    simp only [closeClass?] at h
    split at h
    · cases h
    · rename_i hdrop
      simp only [Option.some.injEq, Prod.mk.injEq] at h
      rw [hdrop, h.2, List.length_cons] at hle
      rw [List.length_cons]
      omega

theorem length_lt_of_readClass? {text : List Char} {token : Token} {rest : List Char}
    (h : readClass? text = some (token, rest)) : rest.length < text.length := by
  unfold readClass? at h
  split at h
  · obtain ⟨⟨members, after⟩, hclose, heq⟩ := Option.map_eq_some_iff.1 h
    have := length_lt_of_closeClass? hclose
    simp only [Prod.mk.injEq] at heq
    rw [← heq.2, List.length_cons]
    omega
  · obtain ⟨⟨members, after⟩, hclose, heq⟩ := Option.map_eq_some_iff.1 h
    have := length_lt_of_closeClass? hclose
    simp only [Prod.mk.injEq] at heq
    rw [← heq.2]
    exact this

/-- The tokens of the rest of a pattern, read from a position. The flag says whether a path
component can start there. -/
def readTokens (position : Nat) (atComponent : Bool) :
    List Char → Except Fault (List Token)
  | [] => .ok []
  | '?' :: rest => (.anyChar :: ·) <$> readTokens (position + 1) false rest
  | '*' :: '*' :: '*' :: _ => .error ⟨position + 2, .tooManyStars⟩
  | '*' :: '*' :: rest =>
    if atComponent then
      match rest with
      | [] => .ok [.anyDirectories]
      | '/' :: rest => (.anyDirectories :: ·) <$> readTokens (position + 3) true rest
      | _ => .error ⟨position + 2, .partOfComponent⟩
    else .error ⟨position - 1, .partOfComponent⟩
  | '*' :: rest => (.anyRun :: ·) <$> readTokens (position + 1) false rest
  | '[' :: rest =>
    match h : readClass? rest with
    | some (token, after) =>
      (token :: ·) <$> readTokens (position + 1 + (rest.length - after.length)) false after
    | none => .error ⟨position, .badClass⟩
  | c :: rest => (.literal c :: ·) <$> readTokens (position + 1) (c = '/') rest
termination_by text => text.length
decreasing_by
  all_goals simp_wf
  all_goals try omega
  have hshorter := length_lt_of_readClass? h
  omega

/-- A compiled pattern. -/
structure Pattern where
  tokens : List Token
deriving DecidableEq

/-- The pattern with a text. -/
def Pattern.compile (text : String) : Except Fault Pattern :=
  Pattern.mk <$> readTokens 0 true text.toList

end Rebuild.Glob
