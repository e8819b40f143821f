import Rebuild.FileSystem.Change
import Rebuild.Proofs.PathSet.Ascending
import Rebuild.Proofs.Staleness.Comparison

/-!
# What the stale sources are

In a file system that stands still the search for stale sources has one meaning. The sources under
each root are compared with the targets that belong to their paths below that root. So a file that
two roots lead to is stale if it is stale for one of them.
-/

namespace Rebuild

namespace StaleRequest

variable {request : StaleRequest} {fs : FileSystem} {source : Source} {sources stale : List Source}
  {mappings : List Mapping}

/-! ### The sources under a root -/

theorem outcome_staleAmong_cons :
    ((request.staleAmong mappings (source :: sources)).on fs).outcome = .ok stale ↔
      ∃ verdict rest, ((request.isStale mappings source).on fs).outcome = .ok verdict ∧
        ((request.staleAmong mappings sources).on fs).outcome = .ok rest ∧
        stale = if verdict then source :: rest else rest := by
  rw [staleAmong, Reading.outcome_bind, bind_eq_ok_iff]
  simp only [Reading.outcome_bind, bind_eq_ok_iff, Reading.outcome_pure, Except.ok.injEq]
  constructor
  · rintro ⟨verdict, hverdict, rest, hrest, rfl⟩
    exact ⟨verdict, rest, hverdict, hrest, rfl⟩
  · rintro ⟨verdict, rest, hverdict, hrest, rfl⟩
    exact ⟨verdict, hverdict, rest, hrest, rfl⟩

/-- Each source is compared, and those that are stale are kept. -/
theorem staleAmong_verdicts (h : ((request.staleAmong mappings sources).on fs).outcome = .ok stale) :
    ∀ source ∈ sources, ∃ verdict,
      ((request.isStale mappings source).on fs).outcome = .ok verdict := by
  induction sources generalizing stale with
  | nil => simp
  | cons first sources ih =>
    obtain ⟨verdict, rest, hfirst, hrest, _⟩ := outcome_staleAmong_cons.1 h
    exact List.forall_mem_cons.2 ⟨⟨verdict, hfirst⟩, ih hrest⟩

theorem mem_staleAmong_iff (hmappings : request.policy.mappings = some mappings)
    (h : ((request.staleAmong mappings sources).on fs).outcome = .ok stale) :
    source ∈ stale ↔ source ∈ sources ∧ request.Stale fs source := by
  induction sources generalizing stale with
  | nil =>
    obtain rfl : [] = stale := Except.ok.inj h
    simp
  | cons first sources ih =>
    obtain ⟨verdict, rest, hfirst, hrest, rfl⟩ := outcome_staleAmong_cons.1 h
    have hstale := isStale_eq_true_iff hmappings hfirst
    cases verdict with
    | true =>
      rw [if_pos rfl, List.mem_cons, List.mem_cons, ih hrest]
      constructor
      · rintro (rfl | ⟨hmem, hsource⟩)
        · exact ⟨Or.inl rfl, hstale.1 rfl⟩
        · exact ⟨Or.inr hmem, hsource⟩
      · rintro ⟨rfl | hmem, hsource⟩
        · exact Or.inl rfl
        · exact Or.inr ⟨hmem, hsource⟩
    | false =>
      rw [if_neg Bool.false_ne_true, List.mem_cons, ih hrest]
      constructor
      · rintro ⟨hmem, hsource⟩
        exact ⟨Or.inr hmem, hsource⟩
      · rintro ⟨rfl | hmem, hsource⟩
        · exact absurd (hstale.2 hsource) Bool.false_ne_true
        · exact ⟨hmem, hsource⟩

/-- The sources that a root has for a request. -/
def sourcesUnder (request : StaleRequest) (fs : FileSystem) (root : Path) :
    Except Error (List Source) := do
  let selection ← request.selection
  ((Source.scan selection root).on fs).outcome

/-- A source is found under one of the roots of a request. -/
def Scanned (request : StaleRequest) (fs : FileSystem) (source : Source) : Prop :=
  ∃ root ∈ request.sourceRoots, ∃ sources,
    request.sourcesUnder fs root = .ok sources ∧ source ∈ sources

/-- What is stale of the sources under a root. -/
def staleOf (request : StaleRequest) (fs : FileSystem) (sources : List Source) :
    Except Error (List Source) :=
  match request.policy.mappings with
  | none => .ok sources
  | some mappings => ((request.staleAmong mappings sources).on fs).outcome

theorem mappings_eq_none_iff {policy : Policy} : policy.mappings = none ↔ policy = .always := by
  cases policy <;> simp [Policy.mappings]

theorem mem_staleOf_iff (h : request.staleOf fs sources = .ok stale) :
    source ∈ stale ↔ source ∈ sources ∧ (request.policy = .always ∨ request.Stale fs source) := by
  rw [staleOf] at h
  split at h
  case h_1 hmappings =>
    obtain rfl := Except.ok.inj h
    simp [mappings_eq_none_iff.1 hmappings]
  case h_2 mappings hmappings =>
    have hpolicy : request.policy ≠ .always := by
      rw [ne_eq, ← mappings_eq_none_iff, hmappings]
      exact Option.some_ne_none _
    rw [mem_staleAmong_iff hmappings h, or_iff_right hpolicy]

theorem outcome_logFound (what : String) (root : Path) (found : List Path) :
    ((logFound what root found).on fs).outcome = .ok () := by
  have hlines : ∀ paths : List Path,
      ((paths.forM fun path => Reading.log .debug s!"  {path.text}").on fs).outcome = .ok () := by
    intro paths
    induction paths with
    | nil => rfl
    | cons path paths ih => exact ih
  rw [logFound]
  split
  · rfl
  · exact hlines found

theorem sourcesUnder_eq {selection : Glob.Selection} (hselection : request.selection = .ok selection)
    (root : Path) :
    request.sourcesUnder fs root = ((Source.scan selection root).on fs).outcome := by
  rw [sourcesUnder, hselection]
  rfl

theorem outcome_staleUnder (selection : Glob.Selection) (root : Path) :
    ((request.staleUnder selection root).on fs).outcome
      = ((Source.scan selection root).on fs).outcome >>= fun sources =>
          List.map Source.path <$> request.staleOf fs sources := by
  rw [staleUnder, Reading.outcome_bind]
  congr 1
  funext sources
  rw [staleOf, map_eq_pure_bind]
  cases request.policy.mappings with
  | none =>
    simp only [Reading.outcome_bind, outcome_logFound]
    rfl
  | some mappings =>
    simp only [Reading.outcome_bind, outcome_logFound]
    rfl

/-- A root adds the paths of those of its sources that are stale. -/
theorem outcome_staleUnder_eq_ok_iff {selection : Glob.Selection} {root : Path} {paths : List Path}
    (hselection : request.selection = .ok selection) :
    ((request.staleUnder selection root).on fs).outcome = .ok paths ↔
      ∃ sources stale, request.sourcesUnder fs root = .ok sources ∧
        request.staleOf fs sources = .ok stale ∧ stale.map Source.path = paths := by
  rw [outcome_staleUnder, sourcesUnder_eq hselection]
  simp only [bind_eq_ok_iff, map_eq_ok_iff, exists_and_left]

/-! ### All roots -/

theorem outcome_staleSources : (request.staleSources.on fs).outcome
    = request.selection >>= fun selection =>
        (fun found => PathSet.empty.insertAll found.flatten) <$> request.sourceRoots.mapM fun root =>
          ((request.staleUnder selection root).on fs).outcome := by
  rw [staleSources, Reading.outcome_bind]
  congr 1
  funext selection
  rw [Reading.outcome_bind, Reading.outcome_mapM, map_eq_pure_bind]
  rfl

theorem outcome_staleSources_eq_ok_iff {set : PathSet} :
    (request.staleSources.on fs).outcome = .ok set ↔
      ∃ selection found, request.selection = .ok selection ∧
        request.sourceRoots.mapM (fun root => ((request.staleUnder selection root).on fs).outcome)
          = .ok found ∧
        PathSet.empty.insertAll found.flatten = set := by
  rw [outcome_staleSources]
  simp only [bind_eq_ok_iff, map_eq_ok_iff, exists_and_left]

theorem ascending_staleSources {set : PathSet}
    (hok : (request.staleSources.on fs).outcome = .ok set) : PathSet.Ascending set.toList := by
  obtain ⟨selection, found, -, -, rfl⟩ := outcome_staleSources_eq_ok_iff.1 hok
  exact PathSet.ascending_insertAll _

/-- What is collected from the roots, where each root gives the paths of some of its sources. -/
theorem contains_collected_iff {gather : Path → Except Error (List Path)} {keep : Source → Prop}
    {found : List (List Path)} {path : Path}
    (hgather : ∀ root paths, gather root = .ok paths → ∃ sources kept : List Source,
      request.sourcesUnder fs root = .ok sources ∧ kept.map Source.path = paths ∧
      ∀ source, source ∈ kept ↔ source ∈ sources ∧ keep source)
    (hfound : request.sourceRoots.mapM gather = .ok found) :
    (PathSet.empty.insertAll found.flatten).contains path ↔
      ∃ source, request.Scanned fs source ∧ source.path.Same path ∧ keep source := by
  have hempty : ¬ PathSet.empty.contains path := by simp [PathSet.contains, PathSet.empty]
  rw [PathSet.contains_insertAll_iff, or_iff_right hempty]
  constructor
  · rintro ⟨member, hmember, hsame⟩
    obtain ⟨paths, hpaths, hmember⟩ := List.mem_flatten.1 hmember
    obtain ⟨root, hroot, hunder⟩ := (mem_iff_of_mapM hfound).1 hpaths
    obtain ⟨sources, kept, hsources, rfl, hkept⟩ := hgather root paths hunder
    obtain ⟨source, hsource, rfl⟩ := List.mem_map.1 hmember
    obtain ⟨hmem, hkeep⟩ := (hkept source).1 hsource
    exact ⟨source, ⟨root, hroot, sources, hsources, hmem⟩, hsame, hkeep⟩
  · rintro ⟨source, ⟨root, hroot, sources, hsources, hmem⟩, hsame, hkeep⟩
    obtain ⟨paths, hpaths, hunder⟩ := exists_of_mem_of_mapM hfound hroot
    obtain ⟨sources', kept, hsources', rfl, hkept⟩ := hgather root paths hunder
    obtain rfl := Except.ok.inj (hsources.symm.trans hsources')
    have hsource := (hkept source).2 ⟨hmem, hkeep⟩
    exact ⟨source.path, List.mem_flatten.2 ⟨_, hpaths, List.mem_map_of_mem hsource⟩, hsame⟩

/-- A path is found stale if it is that of a source that is stale, or of any source where nothing is
compared. -/
theorem contains_staleSources_iff {set : PathSet}
    (hok : (request.staleSources.on fs).outcome = .ok set) {path : Path} :
    set.contains path ↔ ∃ source, request.Scanned fs source ∧ source.path.Same path ∧
      (request.policy = .always ∨ request.Stale fs source) := by
  obtain ⟨selection, found, hselection, hfound, rfl⟩ := outcome_staleSources_eq_ok_iff.1 hok
  refine contains_collected_iff ?_ hfound
  intro root paths hunder
  obtain ⟨sources, stale, hsources, hstale, hpaths⟩ :=
    (outcome_staleUnder_eq_ok_iff hselection).1 hunder
  exact ⟨sources, stale, hsources, hpaths, fun source => mem_staleOf_iff hstale⟩

/-! ### Main result -/

/-- What a search that succeeds finds. Under a policy that compares these are the paths of the
sources that have an outdated target, each looked up by its path below the root that it was found
under; a source without the suffix has no targets, and of named targets the oldest one decides.
Without a comparison these are the paths of all sources. -/
theorem staleSources_exact {set : PathSet} (hok : (request.staleSources.on fs).outcome = .ok set) :
    (request.policy ≠ .always → ∀ path, set.contains path ↔
      ∃ source, request.Scanned fs source ∧ source.path.Same path ∧ request.Stale fs source) ∧
    (request.policy = .always → ∀ path, set.contains path ↔
      ∃ source, request.Scanned fs source ∧ source.path.Same path) ∧
    (∀ sourceSuffix, request.policy.sourceSuffix? = some sourceSuffix → ∀ source : Source,
      ¬ sourceSuffix.toList <:+ source.relative.toList →
        request.targetsOf source = [] ∧ ¬ request.Stale fs source) ∧
    ∀ sourceSuffix names, request.policy = .explicit sourceSuffix names → ∀ source,
      request.Stale fs source ↔ sourceSuffix.toList <:+ source.relative.toList ∧
        ∃ time, fs.modified? source.path = some time ∧
          ((∃ name ∈ names, fs.status (request.targetDirectory.join ⟨name⟩) = .error .notFound) ∨
            ∃ oldest, Oldest fs (names.map fun name => request.targetDirectory.join ⟨name⟩) oldest ∧
              oldest.toNanos + request.tolerance.toNanos < time.toNanos) := by
  refine ⟨?_, ?_, ?_, ?_⟩
  · intro hpolicy path
    rw [contains_staleSources_iff hok]
    simp only [or_iff_right hpolicy]
  · intro hpolicy path
    rw [contains_staleSources_iff hok]
    simp [hpolicy]
  · intro sourceSuffix hpolicy source hsuffix
    have hnil := targetsOf_eq_nil hpolicy hsuffix
    refine ⟨hnil, ?_⟩
    rintro ⟨_, _, target, hmem, _⟩
    rw [hnil] at hmem
    cases hmem
  · intro sourceSuffix names hpolicy source
    rw [Stale, targetsOf_explicit hpolicy]
    by_cases hsuffix : sourceSuffix.toList <:+ source.relative.toList
    · rw [if_pos hsuffix]
      simp only [exists_outdated_iff_oldest, hsuffix, true_and]
      simp only [List.mem_map, exists_exists_and_eq_and]
    · simp [hsuffix]

/-- Two roots lead to one file. Below the inner root its target is missing, below the outer one its
target is up to date. -/
theorem staleSources_of_overlapping_roots :
    let fs : FileSystem := [
      FileSystem.Change.write ⟨"src/a/X.java"⟩ .empty (.afterEpoch 5 (by decide)),
      .write ⟨"out/a/X.class"⟩ .empty (.afterEpoch 10 (by decide))].foldl FileSystem.Change.apply
        (.empty (.afterEpoch 0 (by decide)))
    let request : StaleRequest := {
      sourceRoots := [⟨"src"⟩, ⟨"src/a"⟩], targetDirectory := ⟨"out"⟩,
      policy := .suffixes ".java" [".class"] }
    (request.staleSources.on fs).outcome = .ok ⟨[⟨"src/a/X.java"⟩]⟩ ∧
    request.policy ≠ .always ∧
    ∃ source, request.Scanned fs source ∧ source.path.Same ⟨"src//a/X.java"⟩ ∧
      request.Stale fs source := by
  intro fs request
  have hok : (request.staleSources.on fs).outcome = .ok ⟨[⟨"src/a/X.java"⟩]⟩ := by
    apply eq_ok_of_toOption
    decide +kernel
  have hpolicy : request.policy ≠ .always := by simp [request]
  have hcontains : PathSet.contains ⟨[⟨"src/a/X.java"⟩]⟩ ⟨"src//a/X.java"⟩ := by decide +kernel
  exact ⟨hok, hpolicy, ((staleSources_exact hok).1 hpolicy _).1 hcontains⟩

end StaleRequest

end Rebuild
