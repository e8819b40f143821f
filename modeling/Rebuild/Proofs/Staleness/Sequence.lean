import Rebuild.Proofs.Sources.Ascending
import Rebuild.Proofs.Staleness.Verdict

/-!
# Stale sources in the order of their scan

The stale sources of a root are picked from its scan one by one, so they come in the order of the
scan. And since that is the order in which a set lists its paths, nothing is moved or dropped when
they are put into one: what is read out of the set is what was picked.
-/

namespace Rebuild.StaleRequest

variable {request : StaleRequest} {fs : FileSystem} {root : Path} {sources stale : List Source}
  {mappings : List Mapping} {set : PathSet}

theorem staleAmong_sublist (h : ((request.staleAmong mappings sources).on fs).outcome = .ok stale) :
    stale.Sublist sources := by
  induction sources generalizing stale with
  | nil =>
    obtain rfl : [] = stale := Except.ok.inj h
    exact List.Sublist.refl []
  | cons first sources ih =>
    obtain ⟨verdict, rest, -, hrest, rfl⟩ := outcome_staleAmong_cons.1 h
    cases verdict with
    | true => exact (ih hrest).cons_cons first
    | false => exact (ih hrest).cons first

theorem staleOf_sublist (h : request.staleOf fs sources = .ok stale) : stale.Sublist sources := by
  rw [staleOf] at h
  split at h
  case h_1 =>
    rw [Except.ok.inj h]
  case h_2 => exact staleAmong_sublist h

/-- Under a single root the set is what is stale of the sources there. -/
theorem exists_stale_of_single_root (hroot : request.sourceRoots = [root])
    (hok : (request.staleSources.on fs).outcome = .ok set) :
    ∃ selection sources stale, request.selection = .ok selection ∧
      ((Source.scan selection root).on fs).outcome = .ok sources ∧
      request.staleOf fs sources = .ok stale ∧
      set = PathSet.empty.insertAll (stale.map Source.path) := by
  obtain ⟨selection, found, hselection, hfound, rfl⟩ := outcome_staleSources_eq_ok_iff.1 hok
  rw [hroot, mapM_eq_ok_iff, List.map_singleton, eq_comm, List.map_eq_singleton_iff] at hfound
  obtain ⟨paths, rfl, hpaths⟩ := hfound
  obtain ⟨sources, stale, hsources, hstale, rfl⟩ :=
    (outcome_staleUnder_eq_ok_iff hselection).1 hpaths.symm
  rw [sourcesUnder_eq hselection] at hsources
  exact ⟨selection, sources, stale, hselection, hsources, hstale, by rw [List.flatten_singleton]⟩

/-! ### Main result -/

/-- A scan lists its sources in the strictly ascending order of their paths, so no path comes twice,
in whatever spelling. And a search under a single root gives those sources of the scan that are
stale, or all of them if nothing is compared, in the order of the scan. -/
theorem scan_ascending_and_stale_in_order (hfs : fs.WellFormed) :
    (∀ selection root sources, ((Source.scan selection root).on fs).outcome = .ok sources →
      PathSet.Ascending (sources.map Source.path) ∧
      (sources.map Source.path).Pairwise fun a b => ¬ a.Same b) ∧
    ∀ (request : StaleRequest) root set, request.sourceRoots = [root] →
      (request.staleSources.on fs).outcome = .ok set →
      ∃ selection sources, ∃ stale : List Source, request.selection = .ok selection ∧
        ((Source.scan selection root).on fs).outcome = .ok sources ∧
        stale.Sublist sources ∧ set.toList = stale.map Source.path ∧
        ∀ source ∈ sources,
          source ∈ stale ↔ request.policy = .always ∨ request.Stale fs source := by
  constructor
  · intro selection root sources hscan
    have hascending := Source.ascending_of_scan hfs hscan
    exact ⟨hascending, hascending.not_same⟩
  · intro request root set hroot hok
    obtain ⟨selection, sources, stale, hselection, hscan, hstale, rfl⟩ :=
      exists_stale_of_single_root hroot hok
    have hsublist := staleOf_sublist hstale
    have hascending : PathSet.Ascending (stale.map Source.path) :=
      (Source.ascending_of_scan hfs hscan).sublist (hsublist.map Source.path)
    refine ⟨selection, sources, stale, hselection, hscan, hsublist,
      PathSet.toList_insertAll hascending, ?_⟩
    intro source hsource
    rw [mem_staleOf_iff hstale, and_iff_right hsource]

/-- What is in a directory, or in a directory that a link leads to, comes before the entries whose
names go on after the directory's name, though the texts of the paths are ordered otherwise. -/
theorem scan_of_names_that_go_on :
    let fs : FileSystem := [
      FileSystem.Change.write ⟨"src/a/X.java"⟩ .empty (.afterEpoch 5 (by decide)),
      .write ⟨"src/a b/X.java"⟩ .empty (.afterEpoch 5 (by decide)),
      .write ⟨"src/a.java"⟩ .empty (.afterEpoch 5 (by decide)),
      .makeLink ⟨"src/a-b"⟩ "a",
      .write ⟨"out/a b/X.class"⟩ .empty (.afterEpoch 7 (by decide))].foldl FileSystem.Change.apply
        (.empty (.afterEpoch 0 (by decide)))
    let request : StaleRequest := {
      sourceRoots := [⟨"src"⟩], targetDirectory := ⟨"out"⟩, includes := ["**"]
      policy := .suffixes ".java" [".class"] }
    let sources : List Source := [
      ⟨⟨"src/a/X.java"⟩, "a/X.java"⟩, ⟨⟨"src/a b/X.java"⟩, "a b/X.java"⟩,
      ⟨⟨"src/a-b/X.java"⟩, "a-b/X.java"⟩, ⟨⟨"src/a.java"⟩, "a.java"⟩]
    let set : PathSet := ⟨[⟨"src/a/X.java"⟩, ⟨"src/a-b/X.java"⟩, ⟨"src/a.java"⟩]⟩
    fs.WellFormed ∧ request.sourceRoots = [⟨"src"⟩] ∧
    request.sourcesUnder fs ⟨"src"⟩ = .ok sources ∧
    (request.staleSources.on fs).outcome = .ok set ∧
    PathSet.Ascending (sources.map Source.path) ∧ "src/a b/X.java" < "src/a/X.java" ∧
    ∃ stale : List Source, stale.Sublist sources ∧ set.toList = stale.map Source.path := by
  intro fs request sources set
  have hfs : fs.WellFormed := FileSystem.wellFormed_of_changes _ _
  have hsources : request.sourcesUnder fs ⟨"src"⟩ = .ok sources := by
    apply eq_ok_of_toOption
    decide +kernel
  have hok : (request.staleSources.on fs).outcome = .ok set := by
    apply eq_ok_of_toOption
    decide +kernel
  obtain ⟨hscans, hsearches⟩ := scan_ascending_and_stale_in_order hfs
  obtain ⟨selection, sources', stale, hselection, hscan, hsublist, hset, -⟩ :=
    hsearches request ⟨"src"⟩ set rfl hok
  have hsame : sources' = sources := by
    rw [← sourcesUnder_eq hselection, hsources] at hscan
    exact (Except.ok.inj hscan).symm
  rw [hsame] at hscan hsublist
  exact ⟨hfs, rfl, hsources, hok, (hscans selection ⟨"src"⟩ sources hscan).1, by decide, stale,
    hsublist, hset⟩

end Rebuild.StaleRequest
