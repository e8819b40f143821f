import Rebuild.Proofs.Staleness.Workload

/-!
# Processing comes to an end

After everything that a plan names has been processed, there is nothing left to process. The plan
names every source that has an outdated target. So the targets of all others are fresh, and they stay
fresh as long as none of them disappears or is set back; and those of the planned sources are fresh
once they are made. Then all comparisons run to their end, no source is found stale, and no comparison
fails, since every target has a time.
-/

namespace Rebuild

namespace StaleRequest

variable {request : StaleRequest} {fs later : FileSystem} {source : Source}
  {sources stale : List Source} {mappings : List Mapping} {set : PathSet} {work : Workload}

/-- What a plan asks for has been done between two moments. The sources are what they were, the
planned ones have targets that are not outdated, and no target was lost or set back. -/
structure CarriedOut (request : StaleRequest) (work : Workload) (fs later : FileSystem) :
    Prop where
  sources_eq : ∀ root ∈ request.sourceRoots,
    request.sourcesUnder later root = request.sourcesUnder fs root
  time_eq : ∀ source, request.Scanned fs source →
    later.modified? source.path = fs.modified? source.path
  built : ∀ source, request.Scanned fs source →
    (∃ planned ∈ work.sources, planned.Same source.path) →
    ∀ time, fs.modified? source.path = some time →
    ∀ target ∈ request.targetsOf source, later.Fresh request.tolerance time target
  kept : ∀ source, request.Scanned fs source → ∀ target ∈ request.targetsOf source,
    ∀ time, fs.modified? target = some time →
    ∃ time', later.modified? target = some time' ∧ time.toNanos ≤ time'.toNanos

theorem CarriedOut.scanned_iff (h : CarriedOut request work fs later) :
    request.Scanned later source ↔ request.Scanned fs source := by
  constructor
  · rintro ⟨root, hroot, sources, hsources, hsource⟩
    exact ⟨root, hroot, sources, (h.sources_eq root hroot).symm.trans hsources, hsource⟩
  · rintro ⟨root, hroot, sources, hsources, hsource⟩
    exact ⟨root, hroot, sources, (h.sources_eq root hroot).trans hsources, hsource⟩

/-- A source was planned and its targets were made, or it was up to date before and has stayed so. -/
theorem CarriedOut.upToDate (h : CarriedOut request work fs later)
    (hpolicy : request.policy ≠ .always) (hok : (request.workload.on fs).outcome = .ok work)
    (hscanned : request.Scanned fs source) : request.UpToDate later source := by
  by_cases hstale : request.Stale fs source
  · have hplanned := exists_planned_of_stale hok hscanned hstale
    obtain ⟨time, htime, _⟩ := hstale
    refine ⟨time, ?_, h.built source hscanned hplanned time htime⟩
    rw [h.time_eq source hscanned, htime]
  · obtain ⟨set, hset, _⟩ := stale_and_sources_of_workload hok
    obtain ⟨time, htime, hfresh⟩ := upToDate_of_not_stale hpolicy hset hscanned hstale
    have hlater : later.modified? source.path = some time := by
      rw [h.time_eq source hscanned, htime]
    refine UpToDate.stays ⟨time, htime, hfresh⟩ hlater ?_ (h.kept source hscanned) Nat.le.refl
    intro time' htime'
    rw [Option.some.inj (htime.symm.trans htime')]

/-- Once a plan has been carried out there is nothing left to process. -/
theorem workload_of_carriedOut (hpolicy : request.policy ≠ .always)
    (hok : (request.workload.on fs).outcome = .ok work) (h : CarriedOut request work fs later) :
    (request.workload.on later).outcome = .ok ⟨.empty, []⟩ := by
  obtain ⟨set, hset, _⟩ := stale_and_sources_of_workload hok
  obtain ⟨selection, _, hselection, _⟩ := outcome_staleSources_eq_ok_iff.1 hset
  have hroots : ∀ root ∈ request.sourceRoots,
      ∃ sources, request.sourcesUnder later root = .ok sources := by
    intro root hroot
    obtain ⟨sources, _, hsources, _⟩ := exists_staleOf hset hroot
    exact ⟨sources, by rw [h.sources_eq root hroot, hsources]⟩
  have hempty : (request.staleSources.on later).outcome = .ok .empty :=
    outcome_staleSources_of_upToDate hpolicy hselection hroots fun source hscanned =>
      h.upToDate hpolicy hok (h.scanned_iff.1 hscanned)
  rw [workload, Reading.outcome_bind, hempty]
  rfl

/-- Of two sources one has an old target. The plan names it, and its target is written. -/
theorem workload_after_one_target :
    let fs : FileSystem := [
      FileSystem.Change.write ⟨"src/A.java"⟩ .empty (.afterEpoch 5 (by decide)),
      .write ⟨"src/B.java"⟩ .empty (.afterEpoch 5 (by decide)),
      .write ⟨"out/A.class"⟩ .empty (.afterEpoch 3 (by decide)),
      .write ⟨"out/B.class"⟩ .empty (.afterEpoch 8 (by decide))].foldl FileSystem.Change.apply
        (.empty (.afterEpoch 0 (by decide)))
    let later : FileSystem := FileSystem.Change.apply fs
      (.write ⟨"out/A.class"⟩ .empty (.afterEpoch 5 (by decide)))
    let request : StaleRequest := {
      sourceRoots := [⟨"src"⟩], targetDirectory := ⟨"out"⟩,
      policy := .suffixes ".java" [".class"] }
    let work : Workload := ⟨⟨[⟨"src/A.java"⟩]⟩, [⟨"src/A.java"⟩]⟩
    request.policy ≠ .always ∧ (request.workload.on fs).outcome = .ok work ∧
    CarriedOut request work fs later ∧
    (request.workload.on later).outcome = .ok ⟨.empty, []⟩ := by
  intro fs later request work
  have hpolicy : request.policy ≠ .always := by simp [request]
  have hok : (request.workload.on fs).outcome = .ok work := by
    apply eq_ok_of_toOption
    decide +kernel
  let a : Source := ⟨⟨"src/A.java"⟩, "A.java"⟩
  let b : Source := ⟨⟨"src/B.java"⟩, "B.java"⟩
  have hsources : request.sourcesUnder fs ⟨"src"⟩ = .ok [a, b] := by
    apply eq_ok_of_toOption
    decide +kernel
  have hscanned : ∀ source, request.Scanned fs source → source = a ∨ source = b := by
    rintro source ⟨root, hroot, sources, hunder, hmem⟩
    obtain rfl := List.mem_singleton.1 hroot
    obtain rfl := Except.ok.inj (hsources.symm.trans hunder)
    simpa using hmem
  have htargets : request.targetsOf a = [⟨"out/A.class"⟩] ∧
      request.targetsOf b = [⟨"out/B.class"⟩] := by decide +kernel
  have htimes : fs.modified? a.path = some (.afterEpoch 5 (by decide)) ∧
      fs.modified? ⟨"out/A.class"⟩ = some (.afterEpoch 3 (by decide)) ∧
      fs.modified? ⟨"out/B.class"⟩ = some (.afterEpoch 8 (by decide)) := by decide +kernel
  have hlater : later.modified? ⟨"out/A.class"⟩ = some (.afterEpoch 5 (by decide)) ∧
      later.modified? ⟨"out/B.class"⟩ = some (.afterEpoch 8 (by decide)) := by decide +kernel
  have hdone : CarriedOut request work fs later := by
    refine ⟨?_, ?_, ?_, ?_⟩
    · intro root hroot
      obtain rfl := List.mem_singleton.1 hroot
      rw [hsources]
      apply eq_ok_of_toOption
      decide +kernel
    · intro source hsource
      rcases hscanned source hsource with rfl | rfl
      · decide +kernel
      · decide +kernel
    · intro source hsource hplanned start hstart target htarget
      rcases hscanned source hsource with rfl | rfl
      · obtain rfl := Option.some.inj (htimes.1.symm.trans hstart)
        obtain rfl := List.mem_singleton.1 (htargets.1 ▸ htarget)
        exact ⟨_, hlater.1, by decide⟩
      · exact absurd hplanned (by decide +kernel)
    · intro source hsource target htarget start hstart
      rcases hscanned source hsource with rfl | rfl
      · obtain rfl := List.mem_singleton.1 (htargets.1 ▸ htarget)
        obtain rfl := Option.some.inj (htimes.2.1.symm.trans hstart)
        exact ⟨_, hlater.1, by decide⟩
      · obtain rfl := List.mem_singleton.1 (htargets.2 ▸ htarget)
        obtain rfl := Option.some.inj (htimes.2.2.symm.trans hstart)
        exact ⟨_, hlater.2, by decide⟩
  exact ⟨hpolicy, hok, hdone, workload_of_carriedOut hpolicy hok hdone⟩

end StaleRequest

end Rebuild
