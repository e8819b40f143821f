import Mathlib.Data.List.DropRight
import Rebuild.Proofs.Glob.Takes
import Rebuild.Proofs.Sources.Scan
import Rebuild.Proofs.Staleness.Targets
import Rebuild.Proofs.Staleness.Verdict

/-!
# Sources have targets

Patterns say which files are sources, and a suffix says which sources have targets. A source without
targets is never out of date, so where the two differ files are passed over in silence.

They are not the same by their rules. A pattern as `**/*.java` divides a path into directories, a run
within one directory, and the suffix letter by letter; the mapping only looks at the end of the path.
But a path that ends in the suffix can be divided in that way, at its last slash and before the
suffix, since the suffix has no slash in it. That holds for every suffix that stands for itself in a
pattern, and for paths of any form.
-/

namespace Rebuild

namespace Glob

variable {suffix text : List Char}

/-! ### The last part of a path -/

/-- What a path has after its last slash. -/
def lastPart (text : List Char) : List Char := text.rtakeWhile (· ≠ '/')

theorem slash_notMem_lastPart (text : List Char) : '/' ∉ lastPart text :=
  fun h => absurd (List.mem_rtakeWhile_imp h) (by decide)

theorem exists_directories (text : List Char) :
    ∃ front, Token.anyDirectories.Takes front ∧ front ++ lastPart text = text := by
  refine ⟨text.rdropWhile (· ≠ '/'), ?_, List.rdropWhile_append_rtakeWhile⟩
  by_cases hempty : text.rdropWhile (· ≠ '/') = []
  · exact Or.inl hempty
  · have hlast := List.rdropWhile_last_not _ text hempty
    rw [decide_eq_true_eq, not_ne_iff] at hlast
    have hwhole := List.dropLast_append_getLast hempty
    rw [hlast] at hwhole
    exact Or.inr ⟨_, hwhole.symm⟩

theorem lastPart_append (h : '/' ∉ suffix) (base : List Char) :
    lastPart (base ++ suffix) = lastPart base ++ suffix := by
  have hfree : ∀ c ∈ suffix.reverse, decide (c ≠ '/') = true := by
    intro c hc
    rw [decide_eq_true_eq]
    rintro rfl
    exact h (List.mem_reverse.1 hc)
  rw [lastPart, List.rtakeWhile, List.reverse_append, List.takeWhile_append_of_pos hfree,
    List.reverse_append, List.reverse_reverse]
  rfl

theorem suffix_lastPart_iff (h : '/' ∉ suffix) : suffix <:+ lastPart text ↔ suffix <:+ text := by
  constructor
  · exact fun hlast => hlast.trans (List.rtakeWhile_suffix _ text)
  · rintro ⟨base, rfl⟩
    rw [lastPart_append h]
    exact List.suffix_append (lastPart base) suffix

/-! ### Patterns for a suffix -/

/-- A suffix that stands for itself in a pattern, and is within one directory. -/
def PlainSuffix (suffix : String) : Prop := ∀ c ∈ suffix.toList, c ∉ ['/', '*', '?', '[']

instance (suffix : String) : Decidable (PlainSuffix suffix) :=
  List.decidableBAll (fun c => c ∉ ['/', '*', '?', '[']) suffix.toList

theorem plainSuffix_default : PlainSuffix defaultSuffix := by decide

theorem readTokens_of_plain (h : ∀ c ∈ text, c ∉ ['/', '*', '?', '[']) (position : Nat)
    (atComponent : Bool) : readTokens position atComponent text = .ok (text.map .literal) := by
  induction text generalizing position atComponent with
  | nil => rw [readTokens, List.map_nil]
  | cons c text ih =>
    obtain ⟨hc, htext⟩ := List.forall_mem_cons.1 h
    simp only [List.mem_cons, List.not_mem_nil, or_false, not_or] at hc
    obtain ⟨-, hstar, hquestion, hbracket⟩ := hc
    rw [readTokens, ih htext]
    case x_1 => exact hquestion
    case x_2 => exact fun _ heq => absurd heq hstar
    case x_3 => exact fun _ heq => absurd heq hstar
    case x_4 => exact hstar
    case x_5 => exact hbracket
    rfl

theorem compile_suffix {suffix : String} (h : PlainSuffix suffix) :
    Pattern.compile ("**/*" ++ suffix)
      = .ok ⟨.anyDirectories :: .anyRun :: suffix.toList.map .literal⟩ := by
  have hstar : ∀ rest, suffix.toList ≠ '*' :: rest := by
    intro rest heq
    exact absurd (h '*' (heq ▸ List.mem_cons_self)) (by decide)
  have hrun : readTokens 3 true ('*' :: suffix.toList)
      = .ok (.anyRun :: suffix.toList.map .literal) := by
    rw [readTokens, readTokens_of_plain h]
    case x_1 => exact fun tail => hstar ('*' :: tail)
    case x_2 => exact hstar
    rfl
  have htext : ("**/*" ++ suffix).toList = '*' :: '*' :: '/' :: '*' :: suffix.toList := by
    rw [String.toList_append]
    rfl
  rw [Pattern.compile, htext, readTokens, hrun]
  rfl

theorem matchTokens_literal_iff : matchTokens (suffix.map .literal) text = true ↔ text = suffix := by
  induction suffix generalizing text with
  | nil => rw [List.map_nil, matchTokens, List.isEmpty_iff]
  | cons c suffix ih =>
    rw [List.map_cons, matchTokens_cons_iff (by simp)]
    simp only [ih, Token.Takes, Token.accepts, beq_iff_eq]
    constructor
    · rintro ⟨part, rest, rfl, ⟨d, rfl, rfl⟩, rfl⟩
      rfl
    · rintro rfl
      exact ⟨[c], suffix, rfl, ⟨c, rfl, rfl⟩, rfl⟩

/-- Directories, a run and then a suffix are what every text with the suffix can be divided into. -/
theorem matchTokens_suffix_iff :
    matchTokens (.anyDirectories :: .anyRun :: suffix.map .literal) text = true ↔
      suffix <:+ text := by
  have hrun : ∀ rest, matchTokens (.anyRun :: suffix.map .literal) rest = true ↔ ∃ run last,
      run ++ last = rest ∧ Token.anyRun.Takes run ∧ matchTokens (suffix.map .literal) last = true :=
    fun rest => matchTokens_cons_iff (by simp)
  rw [matchTokens_cons_iff fun _ => List.cons_ne_nil _ _]
  simp only [hrun, matchTokens_literal_iff]
  constructor
  · rintro ⟨front, rest, rfl, -, run, _, rfl, -, rfl⟩
    rw [← List.append_assoc]
    exact List.suffix_append _ _
  · rintro ⟨base, rfl⟩
    -- What stands before the suffix is cut at its own last slash, so the run has none.
    obtain ⟨front, hfront, hbase⟩ := exists_directories base
    refine ⟨front, lastPart base ++ suffix, ?_, hfront, lastPart base, suffix, rfl,
      slash_notMem_lastPart base, rfl⟩
    rw [← List.append_assoc, hbase]

theorem exists_compile_suffix {suffix : String} (h : PlainSuffix suffix) :
    ∃ compiled, Pattern.compile ("**/*" ++ suffix) = .ok compiled ∧
      ∀ path : String, compiled.selects path = true ↔ suffix.toList <:+ path.toList := by
  refine ⟨_, compile_suffix h, fun path => ?_⟩
  rw [selects_eq_matchTokens, matchTokens_suffix_iff]

end Glob

open Glob (PlainSuffix Selection lastPart)

variable {suffix : String} {tails : List String} {request : StaleRequest} {fs : FileSystem}
  {source : Source}

theorem Mapping.targets_ne_nil_iff (directory : Path) (path : String) (htails : tails ≠ []) :
    (Mapping.suffix suffix tails).targets directory path ≠ [] ↔ suffix.toList <:+ path.toList := by
  by_cases h : suffix.toList <:+ path.toList
  · obtain ⟨base, hbase⟩ := exists_base h
    rw [targets_of_eq hbase, ne_eq, List.map_eq_nil_iff]
    exact iff_of_true htails h
  · rw [targets_of_not_suffix h]
    exact iff_of_false (fun hne => hne rfl) h

namespace StaleRequest

theorem Scanned.exists_selection (h : request.Scanned fs source) : ∃ selection,
    Selection.compile request.includes request.excludes = .ok selection ∧
      selection.selects source.relative = true := by
  obtain ⟨root, -, sources, hunder, hmem⟩ := h
  rw [sourcesUnder] at hunder
  obtain ⟨selection, hselection, hscan⟩ := bind_eq_ok_iff.1 hunder
  refine ⟨selection, ?_, Source.selects_of_mem_scan hscan hmem⟩
  rwa [StaleRequest.selection, mapError_eq_ok_iff] at hselection

/-- What is found with the pattern for a suffix has the suffix, whatever else is left out. -/
theorem Scanned.suffix_of_includes (h : request.Scanned fs source) (hplain : PlainSuffix suffix)
    (hincludes : request.includes = ["**/*" ++ suffix]) :
    suffix.toList <:+ source.relative.toList := by
  obtain ⟨selection, hcompile, hselects⟩ := h.exists_selection
  obtain ⟨compiled, hpattern, hiff⟩ := Glob.exists_compile_suffix hplain
  rw [hincludes, Glob.compile_eq_ok_iff, Glob.mapM_compile_singleton hpattern] at hcompile
  rw [Selection.selects, ← Except.ok.inj hcompile.1, Bool.and_eq_true, List.any_cons, List.any_nil,
    Bool.or_false, hiff] at hselects
  exact hselects.1

/-! ### Main result -/

/-- The pattern `**/*` with a plain suffix selects a path exactly if the part after its last slash
ends in the suffix, and that is so exactly if a mapping from the suffix to any others has a target
for the path. So a search with this pattern and such a mapping finds no source without targets. The
pattern and the suffix that are taken if nothing else is said are of this kind. -/
theorem selects_iff_targets (hplain : PlainSuffix suffix) :
    (∃ selection, Selection.compile ["**/*" ++ suffix] [] = .ok selection ∧ ∀ path : String,
      (selection.selects path = true ↔ suffix.toList <:+ lastPart path.toList) ∧
      ∀ directory tails, tails ≠ [] → (selection.selects path = true ↔
        (Mapping.suffix suffix tails).targets directory path ≠ [])) ∧
    (∀ (request : StaleRequest) (tails : List String), request.includes = ["**/*" ++ suffix] →
      request.policy = .suffixes suffix tails → tails ≠ [] →
      ∀ fs source, request.Scanned fs source → request.targetsOf source ≠ []) ∧
    defaultInclude = "**/*" ++ defaultSuffix ∧ PlainSuffix defaultSuffix := by
  refine ⟨?_, ?_, by decide +kernel, Glob.plainSuffix_default⟩
  · obtain ⟨compiled, hpattern, hiff⟩ := Glob.exists_compile_suffix hplain
    refine ⟨_, Glob.compile_single_eq_ok_iff.2 ⟨compiled, hpattern, rfl⟩, fun path => ?_⟩
    rw [Glob.selects_single, hiff]
    have hslash : '/' ∉ suffix.toList := fun hmem => absurd (hplain '/' hmem) (by decide)
    exact ⟨(Glob.suffix_lastPart_iff hslash).symm,
      fun directory tails htails => (Mapping.targets_ne_nil_iff directory path htails).symm⟩
  · intro request tails hincludes hpolicy htails fs source hscanned
    have hmappings : request.policy.mappings = some [.suffix suffix tails] := by
      rw [hpolicy]
      rfl
    rw [targetsOf, hmappings, Option.getD_some, List.flatMap_singleton,
      Mapping.targets_ne_nil_iff _ _ htails]
    exact hscanned.suffix_of_includes hplain hincludes

/-- The pattern and the suffix that are taken if nothing else is said, for paths that are nothing but
the suffix or have slashes or the suffix in odd places, and for a file with no other name. -/
theorem selects_iff_targets_of_odd_names :
    let mapping := Mapping.suffix defaultSuffix [".class"]
    let fs : FileSystem := (FileSystem.Change.write ⟨"src/a.java/.java"⟩ .empty
      (.afterEpoch 5 (by decide))).apply (.empty (.afterEpoch 0 (by decide)))
    let request : StaleRequest := {
      sourceRoots := [⟨"src"⟩], targetDirectory := ⟨"out"⟩
      policy := .suffixes defaultSuffix [".class"] }
    let source : Source := ⟨⟨"src/a.java/.java"⟩, "a.java/.java"⟩
    PlainSuffix defaultSuffix ∧
    (∃ selection, Selection.compile [defaultInclude] [] = .ok selection ∧
      (∀ path ∈ [".java", "/.java", "a//..java", "a.java/B.java.java"],
        selection.selects path = true ∧ mapping.targets ⟨"out"⟩ path ≠ []) ∧
      ∀ path ∈ ["", "java", "A.javax", "a.java/", "a.java/b"],
        ¬ selection.selects path = true ∧ ¬ mapping.targets ⟨"out"⟩ path ≠ []) ∧
    request.Scanned fs source ∧ request.targetsOf source ≠ [] := by
  intro mapping fs request source
  obtain ⟨⟨selection, hcompile, hagree⟩, htargets, -⟩ :=
    selects_iff_targets Glob.plainSuffix_default
  have hscanned : request.Scanned fs source := by
    refine ⟨⟨"src"⟩, List.mem_cons_self, [source], ?_, List.mem_cons_self⟩
    apply eq_ok_of_toOption
    decide +kernel
  refine ⟨Glob.plainSuffix_default, ⟨selection, hcompile, ?_, ?_⟩, hscanned,
    htargets request [".class"] rfl rfl (by simp) fs source hscanned⟩
  · intro path hpath
    have hlast : defaultSuffix.toList <:+ lastPart path.toList := by
      revert path
      decide +kernel
    have hselects := (hagree path).1.2 hlast
    exact ⟨hselects, ((hagree path).2 ⟨"out"⟩ [".class"] (by simp)).1 hselects⟩
  · intro path hpath
    have hlast : ¬ defaultSuffix.toList <:+ lastPart path.toList := by
      revert path
      decide +kernel
    have hselects := mt (hagree path).1.1 hlast
    exact ⟨hselects, mt ((hagree path).2 ⟨"out"⟩ [".class"] (by simp)).2 hselects⟩

end StaleRequest

end Rebuild
