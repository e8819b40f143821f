import Rebuild.Proofs.Staleness.Verdict

/-!
# Sources that are up to date

A source is up to date if it and all its targets have a time and no target is outdated. That is what a
search finds of every source that it does not call stale, since it has read all targets of such a
source. And if all sources are up to date no comparison can fail, so the search succeeds and finds
nothing.

A source stays up to date when it gets no newer, its targets no older, and no less is tolerated.
-/

namespace Rebuild

namespace FileSystem

variable {fs later : FileSystem} {target : Path} {tolerance tolerance' : Duration}
  {sourceTime sourceTime' : Time}

/-- A target that is there at one moment is there later, and is no older then. -/
def Kept (fs later : FileSystem) (target : Path) : Prop :=
  ∀ time, fs.modified? target = some time →
    ∃ time', later.modified? target = some time' ∧ time.toNanos ≤ time'.toNanos

theorem Fresh.stays (h : fs.Fresh tolerance sourceTime target) (hkept : fs.Kept later target)
    (hsource : sourceTime'.toNanos ≤ sourceTime.toNanos)
    (htolerance : tolerance.toNanos ≤ tolerance'.toNanos) :
    later.Fresh tolerance' sourceTime' target := by
  obtain ⟨time, htime, hle⟩ := h
  obtain ⟨time', htime', hlater⟩ := hkept time htime
  exact ⟨time', htime', by omega⟩

end FileSystem

namespace StaleRequest

variable {request : StaleRequest} {fs later : FileSystem} {source : Source} {sources : List Source}
  {mappings : List Mapping} {set : PathSet}

/-! ### What a search has read -/

/-- A source and all its targets have a time, and no target is outdated. -/
def UpToDate (request : StaleRequest) (fs : FileSystem) (source : Source) : Prop :=
  ∃ time, fs.modified? source.path = some time ∧
    ∀ target ∈ request.targetsOf source, fs.Fresh request.tolerance time target

theorem exists_mappings (hpolicy : request.policy ≠ .always) :
    ∃ mappings, request.policy.mappings = some mappings :=
  Option.ne_none_iff_exists'.1 fun hnone => hpolicy (mappings_eq_none_iff.1 hnone)

theorem outcome_isStale_eq_false_iff (hmappings : request.policy.mappings = some mappings) :
    ((request.isStale mappings source).on fs).outcome = .ok false ↔ request.UpToDate fs source := by
  rw [outcome_isStale_eq_ok_iff hmappings]
  simp only [outcome_anyOutdated_eq_false_iff, UpToDate]

theorem exists_staleOf (hok : (request.staleSources.on fs).outcome = .ok set) {root : Path}
    (hroot : root ∈ request.sourceRoots) : ∃ sources stale,
      request.sourcesUnder fs root = .ok sources ∧ request.staleOf fs sources = .ok stale := by
  obtain ⟨selection, found, hselection, hfound, _⟩ := outcome_staleSources_eq_ok_iff.1 hok
  obtain ⟨paths, _, hunder⟩ := exists_of_mem_of_mapM hfound hroot
  obtain ⟨sources, stale, hsources, hstale, _⟩ :=
    (outcome_staleUnder_eq_ok_iff hselection).1 hunder
  exact ⟨sources, stale, hsources, hstale⟩

/-- If a search succeeds then what it does not find stale is up to date. -/
theorem upToDate_of_not_stale (hpolicy : request.policy ≠ .always)
    (hok : (request.staleSources.on fs).outcome = .ok set) (hscanned : request.Scanned fs source)
    (hstale : ¬ request.Stale fs source) : request.UpToDate fs source := by
  obtain ⟨mappings, hmappings⟩ := exists_mappings hpolicy
  obtain ⟨root, hroot, sources, hsources, hmem⟩ := hscanned
  obtain ⟨sources', stale, hsources', hverdicts⟩ := exists_staleOf hok hroot
  obtain rfl := Except.ok.inj (hsources.symm.trans hsources')
  rw [staleOf, hmappings] at hverdicts
  obtain ⟨verdict, hverdict⟩ := staleAmong_verdicts hverdicts source hmem
  cases verdict with
  | true => exact absurd ((isStale_eq_true_iff hmappings hverdict).1 rfl) hstale
  | false => exact (outcome_isStale_eq_false_iff hmappings).1 hverdict

theorem outcome_staleAmong_of_upToDate (hmappings : request.policy.mappings = some mappings)
    (h : ∀ source ∈ sources, request.UpToDate fs source) :
    ((request.staleAmong mappings sources).on fs).outcome = .ok [] := by
  induction sources with
  | nil => rfl
  | cons first sources ih =>
    obtain ⟨hfirst, hsources⟩ := List.forall_mem_cons.1 h
    rw [outcome_staleAmong_cons]
    exact ⟨false, [], (outcome_isStale_eq_false_iff hmappings).2 hfirst, ih hsources, rfl⟩

/-- If all sources are up to date then a search succeeds and finds nothing. -/
theorem outcome_staleSources_of_upToDate (hpolicy : request.policy ≠ .always)
    {selection : Glob.Selection} (hselection : request.selection = .ok selection)
    (hroots : ∀ root ∈ request.sourceRoots, ∃ sources, request.sourcesUnder fs root = .ok sources)
    (h : ∀ source, request.Scanned fs source → request.UpToDate fs source) :
    (request.staleSources.on fs).outcome = .ok .empty := by
  obtain ⟨mappings, hmappings⟩ := exists_mappings hpolicy
  rw [outcome_staleSources_eq_ok_iff]
  refine ⟨selection, request.sourceRoots.map fun _ => [], hselection, ?_, ?_⟩
  · rw [mapM_eq_ok_iff, List.map_map]
    apply List.map_congr_left
    intro root hroot
    obtain ⟨sources, hsources⟩ := hroots root hroot
    refine (outcome_staleUnder_eq_ok_iff hselection).2 ⟨sources, [], hsources, ?_, rfl⟩
    rw [staleOf, hmappings]
    apply outcome_staleAmong_of_upToDate hmappings
    exact fun source hmem => h source ⟨root, hroot, sources, hsources, hmem⟩
  · have hflatten : (request.sourceRoots.map fun _ => ([] : List Path)).flatten = [] := by simp
    rw [hflatten]
    rfl

/-! ### From one moment to a later one -/

theorem UpToDate.not_stale (h : request.UpToDate fs source) : ¬ request.Stale fs source := by
  obtain ⟨time, htime, hfresh⟩ := h
  rintro ⟨time', htime', target, htarget, houtdated⟩
  obtain rfl := Option.some.inj (htime.symm.trans htime')
  exact (hfresh target htarget).not_outdated houtdated

theorem UpToDate.stays {tolerance : Duration} {time' : Time} (h : request.UpToDate fs source)
    (htime' : later.modified? source.path = some time')
    (hsource : ∀ time, fs.modified? source.path = some time → time'.toNanos ≤ time.toNanos)
    (hkept : ∀ target ∈ request.targetsOf source, fs.Kept later target)
    (htolerance : request.tolerance.toNanos ≤ tolerance.toNanos) :
    UpToDate { request with tolerance } later source := by
  obtain ⟨time, htime, hfresh⟩ := h
  refine ⟨time', htime', ?_⟩
  intro target htarget
  exact (hfresh target htarget).stays (hkept target htarget) (hsource time htime) htolerance

end StaleRequest

end Rebuild
