import Rebuild.Proofs.Staleness.UpToDate
import Rebuild.Staleness.Workload

/-!
# What a plan names

A plan starts with the search for stale sources and fails only if that fails. Where named targets are
built from all sources the roots are walked a second time, but in a file system that stands still the
second walk finds what the first one found, so it cannot fail either. The stale sources are among the
sources that are found then, and so nothing is planned exactly if nothing is stale.
-/

namespace Rebuild

deriving instance DecidableEq for Workload

namespace StaleRequest

variable {request : StaleRequest} {fs : FileSystem} {source : Source} {set all : PathSet}
  {work : Workload}

/-! ### All sources -/

theorem outcome_gathered {selection : Glob.Selection}
    (hselection : request.selection = .ok selection) (root : Path) :
    ((do
      let paths := (← Source.scan selection root).map Source.path
      logFound "sources" root paths
      return paths : Reading (List Path)).on fs).outcome
      = List.map Source.path <$> request.sourcesUnder fs root := by
  rw [sourcesUnder_eq hselection, Reading.outcome_bind]
  simp only [Reading.outcome_bind, outcome_logFound, ok_bind, Reading.outcome_pure]
  rfl

theorem outcome_allSources_eq_ok_iff :
    (request.allSources.on fs).outcome = .ok all ↔ ∃ selection found,
      request.selection = .ok selection ∧
      request.sourceRoots.mapM (fun root => List.map Source.path <$> request.sourcesUnder fs root)
        = .ok found ∧
      PathSet.empty.insertAll found.flatten = all := by
  rw [allSources, Reading.outcome_bind, Reading.outcome_ofExcept, bind_eq_ok_iff]
  constructor
  · rintro ⟨selection, hselection, hall⟩
    rw [Reading.outcome_bind, Reading.outcome_mapM, bind_eq_ok_iff] at hall
    simp only [outcome_gathered hselection] at hall
    obtain ⟨found, hfound, hall⟩ := hall
    exact ⟨selection, found, hselection, hfound, Except.ok.inj hall⟩
  · rintro ⟨selection, found, hselection, hfound, rfl⟩
    refine ⟨selection, hselection, ?_⟩
    rw [Reading.outcome_bind, Reading.outcome_mapM, bind_eq_ok_iff]
    simp only [outcome_gathered hselection]
    exact ⟨found, hfound, rfl⟩

theorem contains_allSources_iff (hok : (request.allSources.on fs).outcome = .ok all) {path : Path} :
    all.contains path ↔ ∃ source, request.Scanned fs source ∧ source.path.Same path := by
  obtain ⟨selection, found, hselection, hfound, rfl⟩ := outcome_allSources_eq_ok_iff.1 hok
  have hall : (PathSet.empty.insertAll found.flatten).contains path ↔
      ∃ source, request.Scanned fs source ∧ source.path.Same path ∧ True := by
    refine contains_collected_iff ?_ hfound
    intro root paths hunder
    obtain ⟨sources, hsources, hpaths⟩ := map_eq_ok_iff.1 hunder
    exact ⟨sources, sources, hsources, hpaths, fun source => (and_iff_left trivial).symm⟩
  simpa only [and_true] using hall

/-- What is listed is listed in the spelling in which a root leads to it. -/
theorem exists_scanned_of_mem_allSources (hok : (request.allSources.on fs).outcome = .ok all)
    {path : Path} (hpath : path ∈ all.toList) :
    ∃ source, request.Scanned fs source ∧ source.path = path := by
  obtain ⟨selection, found, hselection, hfound, rfl⟩ := outcome_allSources_eq_ok_iff.1 hok
  have hmem : path ∈ found.flatten :=
    (PathSet.mem_of_mem_insertAll hpath).resolve_left List.not_mem_nil
  obtain ⟨paths, hpaths, hmem⟩ := List.mem_flatten.1 hmem
  obtain ⟨root, hroot, hunder⟩ := (mem_iff_of_mapM hfound).1 hpaths
  obtain ⟨sources, hsources, rfl⟩ := map_eq_ok_iff.1 hunder
  obtain ⟨source, hsource, rfl⟩ := List.mem_map.1 hmem
  exact ⟨source, ⟨root, hroot, sources, hsources, hsource⟩, rfl⟩

/-- The second walk does not fail where the first one did not. -/
theorem exists_allSources (hok : (request.staleSources.on fs).outcome = .ok set) :
    ∃ all, (request.allSources.on fs).outcome = .ok all := by
  obtain ⟨selection, -, hselection, -⟩ := outcome_staleSources_eq_ok_iff.1 hok
  have hroots : ∀ root ∈ request.sourceRoots,
      ∃ paths, List.map Source.path <$> request.sourcesUnder fs root = .ok paths := by
    intro root hroot
    obtain ⟨sources, -, hsources, -⟩ := exists_staleOf hok hroot
    exact ⟨_, map_eq_ok_iff.2 ⟨sources, hsources, rfl⟩⟩
  obtain ⟨found, hfound⟩ := exists_mapM_eq_ok_iff.2 hroots
  exact ⟨_, outcome_allSources_eq_ok_iff.2 ⟨selection, found, hselection, hfound, rfl⟩⟩

/-! ### From stale sources to a plan -/

/-- The sources to process once some are stale. -/
def toProcess (request : StaleRequest) (fs : FileSystem) (set : PathSet) :
    Except Error (List Path) :=
  match request.policy with
  | .explicit _ _ => PathSet.toList <$> (request.allSources.on fs).outcome
  | _ => .ok set.toList

theorem outcome_workload (hset : (request.staleSources.on fs).outcome = .ok set) :
    (request.workload.on fs).outcome = if set.isEmpty then .ok ⟨.empty, []⟩
      else Workload.mk set <$> request.toProcess fs set := by
  rw [workload, Reading.outcome_bind, hset, ok_bind, toProcess]
  split
  case isTrue => rfl
  case isFalse =>
    cases request.policy with
    | explicit sourceSuffix names =>
      simp only [Reading.outcome_bind, Reading.outcome_map]
      cases (request.allSources.on fs).outcome with
      | ok all => rfl
      | error error => rfl
    | suffixes sourceSuffix tails => rfl
    | always => rfl

theorem toProcess_cases {sources : List Path} (h : request.toProcess fs set = .ok sources) :
    sources = set.toList ∨
      ∃ all, (request.allSources.on fs).outcome = .ok all ∧ sources = all.toList := by
  rw [toProcess] at h
  split at h
  case h_1 =>
    obtain ⟨all, hall, rfl⟩ := map_eq_ok_iff.1 h
    exact Or.inr ⟨all, hall, rfl⟩
  case h_2 => exact Or.inl (Except.ok.inj h).symm

theorem exists_toProcess (hok : (request.staleSources.on fs).outcome = .ok set) :
    ∃ sources, request.toProcess fs set = .ok sources := by
  rw [toProcess]
  split
  · obtain ⟨all, hall⟩ := exists_allSources hok
    exact ⟨all.toList, by rw [hall]; rfl⟩
  · exact ⟨set.toList, rfl⟩

theorem exists_workload_iff : (∃ work, (request.workload.on fs).outcome = .ok work) ↔
    ∃ set, (request.staleSources.on fs).outcome = .ok set := by
  constructor
  · rintro ⟨work, hwork⟩
    rw [workload, Reading.outcome_bind, bind_eq_ok_iff] at hwork
    obtain ⟨set, hset, -⟩ := hwork
    exact ⟨set, hset⟩
  · rintro ⟨set, hset⟩
    obtain ⟨sources, hsources⟩ := exists_toProcess hset
    rw [outcome_workload hset]
    split
    · exact ⟨_, rfl⟩
    · exact ⟨_, by rw [hsources]; rfl⟩

/-- Either nothing is stale and nothing is planned, or the plan is what is to be processed. -/
theorem stale_and_sources_of_workload (hok : (request.workload.on fs).outcome = .ok work) :
    ∃ set, (request.staleSources.on fs).outcome = .ok set ∧
      (set = .empty ∧ work = ⟨set, []⟩ ∨ ¬ set.isEmpty ∧
        ∃ sources, request.toProcess fs set = .ok sources ∧ work = ⟨set, sources⟩) := by
  obtain ⟨set, hset⟩ := exists_workload_iff.1 ⟨work, hok⟩
  refine ⟨set, hset, ?_⟩
  rw [outcome_workload hset] at hok
  split at hok
  case isTrue hempty =>
    obtain rfl : set = .empty := congrArg PathSet.mk (List.isEmpty_iff.1 hempty)
    exact Or.inl ⟨rfl, (Except.ok.inj hok).symm⟩
  case isFalse hempty =>
    obtain ⟨sources, hsources, hwork⟩ := map_eq_ok_iff.1 hok
    exact Or.inr ⟨hempty, sources, hsources, hwork.symm⟩

theorem exists_toProcess_of_contains (hset : (request.staleSources.on fs).outcome = .ok set)
    {sources : List Path} (hsources : request.toProcess fs set = .ok sources) {path : Path}
    (hpath : set.contains path) : ∃ planned ∈ sources, planned.Same path := by
  rcases toProcess_cases hsources with rfl | ⟨all, hall, rfl⟩
  · exact PathSet.contains_iff.1 hpath
  · obtain ⟨source, hscanned, hsame, -⟩ := (contains_staleSources_iff hset).1 hpath
    exact PathSet.contains_iff.1 ((contains_allSources_iff hall).2 ⟨source, hscanned, hsame⟩)

theorem exists_planned_of_contains (hok : (request.workload.on fs).outcome = .ok work)
    (hset : (request.staleSources.on fs).outcome = .ok set) {path : Path}
    (hpath : set.contains path) : ∃ planned ∈ work.sources, planned.Same path := by
  obtain ⟨set', hset', hcases⟩ := stale_and_sources_of_workload hok
  obtain rfl := Except.ok.inj (hset.symm.trans hset')
  rcases hcases with ⟨rfl, -⟩ | ⟨-, sources, hsources, rfl⟩
  · cases hpath
  · exact exists_toProcess_of_contains hset hsources hpath

theorem exists_planned_of_stale (hok : (request.workload.on fs).outcome = .ok work)
    (hscanned : request.Scanned fs source) (hstale : request.Stale fs source) :
    ∃ planned ∈ work.sources, planned.Same source.path := by
  obtain ⟨set, hset⟩ := exists_workload_iff.1 ⟨work, hok⟩
  apply exists_planned_of_contains hok hset
  exact (contains_staleSources_iff hset).2 ⟨source, hscanned, rfl, Or.inr hstale⟩

theorem ascending_toProcess (hset : (request.staleSources.on fs).outcome = .ok set)
    {sources : List Path} (hsources : request.toProcess fs set = .ok sources) :
    PathSet.Ascending sources := by
  rcases toProcess_cases hsources with rfl | ⟨all, hall, rfl⟩
  · exact ascending_staleSources hset
  · obtain ⟨selection, found, -, -, rfl⟩ := outcome_allSources_eq_ok_iff.1 hall
    exact PathSet.ascending_insertAll _

theorem toProcess_ne_nil (hset : (request.staleSources.on fs).outcome = .ok set)
    {sources : List Path} (hsources : request.toProcess fs set = .ok sources) (hne : ¬ set.isEmpty) :
    sources ≠ [] := by
  rintro rfl
  apply hne
  rw [PathSet.isEmpty, List.isEmpty_iff, List.eq_nil_iff_forall_not_mem]
  intro path hpath
  have hcontains : set.contains path := PathSet.contains_iff.2 ⟨path, hpath, rfl⟩
  obtain ⟨planned, hplanned, -⟩ := exists_toProcess_of_contains hset hsources hcontains
  cases hplanned

/-! ### Main result -/

/-- A plan is made exactly if the search for stale sources succeeds. It holds what the search found,
and its sources are in ascending order, no path twice, with all stale ones among them and none if
nothing is stale. They are the stale ones, except where named targets are built from all sources: there
one stale source is enough to name whatever is found under the roots. -/
theorem workload_exact (request : StaleRequest) (fs : FileSystem) :
    ((∃ work, (request.workload.on fs).outcome = .ok work) ↔
      ∃ set, (request.staleSources.on fs).outcome = .ok set) ∧
    ∀ work, (request.workload.on fs).outcome = .ok work →
      (request.staleSources.on fs).outcome = .ok work.stale ∧
      PathSet.Ascending work.sources ∧ (work.sources.Pairwise fun a b => ¬ a.Same b) ∧
      (∀ path, work.stale.contains path → ∃ planned ∈ work.sources, planned.Same path) ∧
      (work.isEmpty ↔ work.stale.isEmpty) ∧
      ((request.policy = .always ∨ ∃ sourceSuffix tails,
          request.policy = .suffixes sourceSuffix tails) → work.sources = work.stale.toList) ∧
      ∀ sourceSuffix names, request.policy = .explicit sourceSuffix names →
        (∃ source, request.Scanned fs source ∧ request.Stale fs source) →
        (∀ planned ∈ work.sources, ∃ source, request.Scanned fs source ∧ source.path = planned) ∧
        ∀ source, request.Scanned fs source → ∃ planned ∈ work.sources, planned.Same source.path := by
  refine ⟨exists_workload_iff, ?_⟩
  intro work hok
  obtain ⟨set, hset, ⟨rfl, rfl⟩ | ⟨hne, sources, hsources, rfl⟩⟩ := stale_and_sources_of_workload hok
  · -- nothing is stale, so no source can be the one that makes all of them be planned
    refine ⟨hset, List.Pairwise.nil, List.Pairwise.nil, ?_, Iff.rfl, fun _ => rfl, ?_⟩
    · intro path hpath
      cases hpath
    · rintro sourceSuffix names - ⟨source, hscanned, hstale⟩
      have hcontains : PathSet.empty.contains source.path :=
        (contains_staleSources_iff hset).2 ⟨source, hscanned, rfl, Or.inr hstale⟩
      cases hcontains
  · have hascending := ascending_toProcess hset hsources
    refine ⟨hset, hascending, hascending.not_same, ?_, ?_, ?_, ?_⟩
    · intro path hpath
      exact exists_toProcess_of_contains hset hsources hpath
    · refine iff_of_false ?_ hne
      intro hempty
      exact toProcess_ne_nil hset hsources hne (List.isEmpty_iff.1 hempty)
    · rintro (hpolicy | ⟨sourceSuffix, tails, hpolicy⟩)
      · rw [toProcess, hpolicy] at hsources
        exact (Except.ok.inj hsources).symm
      · rw [toProcess, hpolicy] at hsources
        exact (Except.ok.inj hsources).symm
    · intro sourceSuffix names hpolicy _
      rw [toProcess, hpolicy] at hsources
      obtain ⟨all, hall, rfl⟩ := map_eq_ok_iff.1 hsources
      refine ⟨fun planned hplanned => exists_scanned_of_mem_allSources hall hplanned, ?_⟩
      intro source hscanned
      exact PathSet.contains_iff.1 ((contains_allSources_iff hall).2 ⟨source, hscanned, rfl⟩)

/-- The archive is older than one source. Everything under the roots is planned, also the note that is
no part of the archive, and each file once although two roots lead to it. -/
theorem workload_of_old_archive :
    let fs : FileSystem := [
      FileSystem.Change.write ⟨"src/X.java"⟩ .empty (.afterEpoch 5 (by decide)),
      .write ⟨"src/note"⟩ .empty (.afterEpoch 1 (by decide)),
      .write ⟨"out/all.jar"⟩ .empty (.afterEpoch 3 (by decide))].foldl FileSystem.Change.apply
        (.empty (.afterEpoch 0 (by decide)))
    let request : StaleRequest := {
      sourceRoots := [⟨"src//"⟩, ⟨"src"⟩], targetDirectory := ⟨"out"⟩,
      policy := .explicit ".java" ["all.jar"], includes := ["**/*"] }
    let work : Workload := ⟨⟨[⟨"src//X.java"⟩]⟩, [⟨"src//X.java"⟩, ⟨"src//note"⟩]⟩
    (request.workload.on fs).outcome = .ok work ∧
    (∃ source, request.Scanned fs source ∧ request.Stale fs source) ∧
    PathSet.Ascending work.sources ∧
    ∃ source, request.Scanned fs source ∧ source.path = ⟨"src//note"⟩ := by
  intro fs request work
  have hok : (request.workload.on fs).outcome = .ok work := by
    apply eq_ok_of_toOption
    decide +kernel
  obtain ⟨hset, hascending, -, -, -, -, hexplicit⟩ := (workload_exact request fs).2 work hok
  have hstale : ∃ source, request.Scanned fs source ∧ request.Stale fs source := by
    have hcontains : work.stale.contains ⟨"src/X.java"⟩ := by decide +kernel
    have hpolicy : request.policy ≠ .always := by simp [request]
    obtain ⟨source, hscanned, -, hstale⟩ := (contains_staleSources_iff hset).1 hcontains
    exact ⟨source, hscanned, hstale.resolve_left hpolicy⟩
  refine ⟨hok, hstale, hascending, ?_⟩
  exact (hexplicit ".java" ["all.jar"] rfl hstale).1 ⟨"src//note"⟩ (by simp [work])

end StaleRequest

end Rebuild
