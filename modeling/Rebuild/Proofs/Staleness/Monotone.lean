import Rebuild.FileSystem.Change
import Rebuild.Proofs.Staleness.UpToDate

/-!
# Fewer stale sources

Let the sources get no newer, let no target disappear or get older, and tolerate no less: then no
source becomes stale. For a source that was not stale before has all its targets, each of them
recent enough, and all three changes only make each of them more recent by comparison. What happens
to the targets of a source that was stale does not matter. Since the comparison is one of exact
numbers, a sum of time and tolerance that is too large to be a time makes no exception.
-/

namespace Rebuild

namespace StaleRequest

variable {request : StaleRequest} {fs later : FileSystem} {tolerance : Duration}
  {first second : PathSet}

/-- Nothing has happened between two moments that could make a source stale: the sources are the
same ones and no newer, no target was lost or set back, and no less is tolerated. -/
structure Eased (request : StaleRequest) (tolerance : Duration) (fs later : FileSystem) : Prop where
  mem_iff : ∀ root ∈ request.sourceRoots, ∀ before after,
    request.sourcesUnder fs root = .ok before → request.sourcesUnder later root = .ok after →
    ∀ source, source ∈ after ↔ source ∈ before
  no_newer : ∀ source, request.Scanned fs source → ∀ before after,
    fs.modified? source.path = some before → later.modified? source.path = some after →
    after.toNanos ≤ before.toNanos
  kept : ∀ source, request.Scanned fs source →
    ∀ target ∈ request.targetsOf source, fs.Kept later target
  tolerance_le : request.tolerance.toNanos ≤ tolerance.toNanos

theorem Eased.scanned {source : Source} (h : Eased request tolerance fs later)
    (hfirst : (request.staleSources.on fs).outcome = .ok first)
    (hscanned : request.Scanned later source) : request.Scanned fs source := by
  obtain ⟨root, hroot, after, hafter, hsource⟩ := hscanned
  obtain ⟨before, -, hbefore, -⟩ := exists_staleOf hfirst hroot
  have hmem := (h.mem_iff root hroot before after hbefore hafter source).1 hsource
  exact ⟨root, hroot, before, hbefore, hmem⟩

/-- If nothing has happened that could make a source stale, then no path is found stale that was not
found stale before. -/
theorem staleSources_subset (h : Eased request tolerance fs later)
    (hfirst : (request.staleSources.on fs).outcome = .ok first)
    (hsecond : ((staleSources { request with tolerance }).on later).outcome = .ok second) :
    ∀ path, second.contains path → first.contains path := by
  intro path hpath
  obtain ⟨source, hlater, hsame, hcases⟩ := (contains_staleSources_iff hsecond).1 hpath
  have hscanned : request.Scanned fs source := h.scanned hfirst hlater
  refine (contains_staleSources_iff hfirst).2 ⟨source, hscanned, hsame, ?_⟩
  by_cases hpolicy : request.policy = .always
  · exact Or.inl hpolicy
  · right
    -- had it not been stale, all its targets would have been read and found recent enough
    by_contra hstale
    have hbefore := upToDate_of_not_stale hpolicy hfirst hscanned hstale
    obtain ⟨time, htime, htarget⟩ := hcases.resolve_left hpolicy
    have hno_newer : ∀ start, fs.modified? source.path = some start →
        time.toNanos ≤ start.toNanos :=
      fun start hstart => h.no_newer source hscanned start time hstart htime
    have hafter := hbefore.stays htime hno_newer (h.kept source hscanned) h.tolerance_le
    exact hafter.not_stale ⟨time, htime, htarget⟩

/-- Of two sources one has an old target and one has none. Then the second is written with an
earlier time and more is tolerated, so that the first is stale no longer. -/
theorem staleSources_with_tolerance :
    let fs : FileSystem := [
      FileSystem.Change.write ⟨"src/A.java"⟩ .empty (.afterEpoch 9 (by decide)),
      .write ⟨"src/B.java"⟩ .empty (.afterEpoch 9 (by decide)),
      .write ⟨"out/A.class"⟩ .empty (.afterEpoch 7 (by decide))].foldl FileSystem.Change.apply
        (.empty (.afterEpoch 0 (by decide)))
    let later : FileSystem := FileSystem.Change.apply fs
      (.write ⟨"src/B.java"⟩ .empty (.afterEpoch 8 (by decide)))
    let request : StaleRequest := {
      sourceRoots := [⟨"src"⟩], targetDirectory := ⟨"out"⟩,
      policy := .suffixes ".java" [".class"] }
    let tolerance : Duration := ⟨2, 0, by decide, by decide⟩
    let first : PathSet := ⟨[⟨"src/A.java"⟩, ⟨"src/B.java"⟩]⟩
    let second : PathSet := ⟨[⟨"src/B.java"⟩]⟩
    Eased request tolerance fs later ∧
    (request.staleSources.on fs).outcome = .ok first ∧
    ((staleSources { request with tolerance }).on later).outcome = .ok second ∧
    ∀ path, second.contains path → first.contains path := by
  intro fs later request tolerance first second
  have hfirst : (request.staleSources.on fs).outcome = .ok first := by
    apply eq_ok_of_toOption
    decide +kernel
  have hsecond : ((staleSources { request with tolerance }).on later).outcome = .ok second := by
    apply eq_ok_of_toOption
    decide +kernel
  let a : Source := ⟨⟨"src/A.java"⟩, "A.java"⟩
  let b : Source := ⟨⟨"src/B.java"⟩, "B.java"⟩
  have hbefore : request.sourcesUnder fs ⟨"src"⟩ = .ok [a, b] := by
    apply eq_ok_of_toOption
    decide +kernel
  have hafter : request.sourcesUnder later ⟨"src"⟩ = .ok [a, b] := by
    apply eq_ok_of_toOption
    decide +kernel
  have hscanned : ∀ source, request.Scanned fs source → source = a ∨ source = b := by
    rintro source ⟨root, hroot, sources, hunder, hmem⟩
    obtain rfl := List.mem_singleton.1 hroot
    obtain rfl := Except.ok.inj (hbefore.symm.trans hunder)
    simpa using hmem
  have htargets : request.targetsOf a = [⟨"out/A.class"⟩] ∧
      request.targetsOf b = [⟨"out/B.class"⟩] := by decide +kernel
  have htimes : fs.modified? a.path = some (.afterEpoch 9 (by decide)) ∧
      fs.modified? b.path = some (.afterEpoch 9 (by decide)) ∧
      later.modified? a.path = some (.afterEpoch 9 (by decide)) ∧
      later.modified? b.path = some (.afterEpoch 8 (by decide)) := by decide +kernel
  have hclasses : fs.modified? ⟨"out/B.class"⟩ = none ∧
      later.modified? ⟨"out/A.class"⟩ = fs.modified? ⟨"out/A.class"⟩ := by decide +kernel
  have heased : Eased request tolerance fs later := by
    refine ⟨?_, ?_, ?_, by decide⟩
    · intro root hroot before after hb ha source
      obtain rfl := List.mem_singleton.1 hroot
      obtain rfl := Except.ok.inj (hbefore.symm.trans hb)
      obtain rfl := Except.ok.inj (hafter.symm.trans ha)
      rfl
    · intro source hsource start time hstart htime
      rcases hscanned source hsource with rfl | rfl
      · obtain rfl := Option.some.inj (htimes.1.symm.trans hstart)
        obtain rfl := Option.some.inj (htimes.2.2.1.symm.trans htime)
        exact Int.le_refl _
      · obtain rfl := Option.some.inj (htimes.2.1.symm.trans hstart)
        obtain rfl := Option.some.inj (htimes.2.2.2.symm.trans htime)
        decide
    · intro source hsource target htarget time htime
      rcases hscanned source hsource with rfl | rfl
      · obtain rfl := List.mem_singleton.1 (htargets.1 ▸ htarget)
        exact ⟨time, hclasses.2.trans htime, Int.le_refl _⟩
      · obtain rfl := List.mem_singleton.1 (htargets.2 ▸ htarget)
        cases hclasses.1.symm.trans htime
  exact ⟨heased, hfirst, hsecond, staleSources_subset heased hfirst hsecond⟩

end StaleRequest

end Rebuild
