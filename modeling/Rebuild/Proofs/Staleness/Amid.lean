import Rebuild.Proofs.Sources.Amid
import Rebuild.Proofs.Staleness.Workload

/-!
# A plan amid changes

The stale sources and the sources of a plan come from two walks where named targets are built from
all sources, and others can change the file system between them. A stale source that they spare is
planned all the same. One that they take away is not, and if nothing else is found then, the plan is
empty although something was stale.
-/

namespace Rebuild

open Reading (ComesTo Within)

variable {allowed : FileSystem → FileSystem → Prop} {fs mid left : FileSystem} {path : Path}

/-- At some time between two moments a path can be looked up. -/
def InSight (allowed : FileSystem → FileSystem → Prop) (fs : FileSystem) (path : Path)
    (left : FileSystem) : Prop :=
  ∃ seen, allowed fs seen ∧ allowed seen left ∧ ∃ status, seen.status path = .ok status

section Preorder

variable [IsPreorder FileSystem allowed]

theorem InSight.after (hfs : allowed fs mid) (h : InSight allowed mid path left) :
    InSight allowed fs path left := by
  obtain ⟨seen, hseen, hleft, hstatus⟩ := h
  exact ⟨seen, IsTrans.trans _ _ _ hfs hseen, hleft, hstatus⟩

theorem InSight.upTo (h : InSight allowed fs path mid) (hmid : allowed mid left) :
    InSight allowed fs path left := by
  obtain ⟨seen, hseen, hleft, hstatus⟩ := h
  exact ⟨seen, hseen, IsTrans.trans _ _ _ hleft hmid, hstatus⟩

theorem inSight_of_lastModified {time : Time}
    (h : ComesTo allowed fs (lastModified path) (some time) left) :
    InSight allowed fs path left := by
  rw [lastModified, Reading.comesTo_look_bind_iff] at h
  obtain ⟨seen, hseen, h⟩ := h
  have hleft := h.allowed_left
  rw [FileSystem.answer] at h
  split at h
  case h_1 status hstatus => exact ⟨seen, hseen, hleft, status, hstatus⟩
  case h_2 => cases (Reading.comesTo_pure_iff.1 h).1
  case h_3 => exact absurd h Reading.not_comesTo_fail

end Preorder

namespace StaleRequest

variable {request : StaleRequest} {selection : Glob.Selection} {root : Path} {source : Source}
  {sources stale : List Source} {mappings : List Mapping} {paths : List Path} {set all : PathSet}
  {work : Workload}

/-! ### The search for stale sources -/

section Preorder

variable [IsPreorder FileSystem allowed]

theorem inSight_of_isStale {verdict : Bool}
    (h : ComesTo allowed fs (request.isStale mappings source) verdict left) :
    InSight allowed fs source.path left := by
  rw [isStale, Reading.comesTo_bind_iff] at h
  obtain ⟨time?, mid, htime, h⟩ := h
  cases time? with
  | none => exact absurd h Reading.not_comesTo_fail
  | some time => exact (inSight_of_lastModified htime).upTo h.allowed_left

theorem mem_of_staleAmong (h : ComesTo allowed fs (request.staleAmong mappings sources) stale left)
    (hmem : source ∈ stale) : source ∈ sources ∧ InSight allowed fs source.path left := by
  induction sources generalizing fs stale left with
  | nil =>
    obtain ⟨rfl, -⟩ := Reading.comesTo_pure_iff.1 h
    cases hmem
  | cons first others ih =>
    rw [staleAmong, Reading.comesTo_bind_iff] at h
    obtain ⟨verdict, mid, hfirst, h⟩ := h
    obtain ⟨rest, last, hrest, h⟩ := Reading.comesTo_bind_iff.1 h
    obtain ⟨rfl, rfl⟩ := Reading.comesTo_pure_iff.1 h
    have hothers : source ∈ rest →
        source ∈ first :: others ∧ InSight allowed fs source.path left := fun hmem =>
      (ih hrest hmem).imp (List.mem_cons_of_mem first) (InSight.after hfirst.allowed_left)
    split at hmem
    · rcases List.mem_cons.1 hmem with rfl | hmem
      · exact ⟨List.mem_cons_self, (inSight_of_isStale hfirst).upTo hrest.allowed_left⟩
      · exact hothers hmem
    · exact hothers hmem

/-- A stale source has been found by a scan, and looked up after it. -/
structure FoundStale (allowed : FileSystem → FileSystem → Prop) (selection : Glob.Selection)
    (root path : Path) (start scanned left : FileSystem) (sources : List Source) : Prop where
  scan : ComesTo allowed start (Source.scan selection root) sources scanned
  mem : ∃ source ∈ sources, source.path = path
  inSight : InSight allowed scanned path left

theorem exists_scan_of_staleUnder (hmappings : request.policy.mappings = some mappings)
    (h : ComesTo allowed fs (request.staleUnder selection root) paths left) (hpath : path ∈ paths) :
    ∃ scanned sources, FoundStale allowed selection root path fs scanned left sources := by
  rw [staleUnder, Reading.comesTo_bind_iff] at h
  obtain ⟨sources, scanned, hscan, h⟩ := h
  simp only [hmappings] at h
  obtain ⟨stale, compared, hstale, h⟩ := Reading.comesTo_bind_iff.1 h
  obtain ⟨_, logged, hlogged, h⟩ := Reading.comesTo_bind_iff.1 h
  obtain ⟨rfl, rfl⟩ := Reading.comesTo_pure_iff.1 h
  obtain ⟨source, hsource, rfl⟩ := List.mem_map.1 hpath
  obtain ⟨hmem, hsight⟩ := mem_of_staleAmong hstale hsource
  exact ⟨scanned, sources, hscan, ⟨source, hmem, rfl⟩, hsight.upTo hlogged.allowed_left⟩

theorem exists_scan_of_staleSources (hmappings : request.policy.mappings = some mappings)
    (h : ComesTo allowed fs request.staleSources set left) (hpath : path ∈ set.toList) :
    ∃ selection, request.selection = .ok selection ∧ ∃ root ∈ request.sourceRoots,
      ∃ start scanned sources, allowed fs start ∧
        FoundStale allowed selection root path start scanned left sources := by
  rw [staleSources, Reading.comesTo_bind_iff] at h
  obtain ⟨selection, _, hcompile, h⟩ := h
  obtain ⟨hselection, rfl⟩ := Reading.comesTo_ofExcept_iff.1 hcompile
  obtain ⟨found, _, hfound, h⟩ := Reading.comesTo_bind_iff.1 h
  obtain ⟨rfl, rfl⟩ := Reading.comesTo_pure_iff.1 h
  have hmem : path ∈ found.flatten :=
    (PathSet.mem_of_mem_insertAll hpath).resolve_left List.not_mem_nil
  obtain ⟨paths, hpaths, hmem⟩ := List.mem_flatten.1 hmem
  obtain ⟨root, hroot, start, stop, hstart, hunder, hstop⟩ := hfound.within_of_mapM.2 paths hpaths
  obtain ⟨scanned, sources, hstale⟩ := exists_scan_of_staleUnder hmappings hunder hmem
  exact ⟨selection, hselection, root, hroot, start, scanned, sources, hstart,
    { hstale with inSight := hstale.inSight.upTo hstop }⟩

/-! ### All sources -/

theorem exists_scan_of_allSources (hselection : request.selection = .ok selection)
    (h : ComesTo allowed fs request.allSources all left) (hroot : root ∈ request.sourceRoots) :
    ∃ sources, Within allowed fs (Source.scan selection root) sources left ∧
      ∀ source ∈ sources, all.contains source.path := by
  rw [allSources, Reading.comesTo_bind_iff] at h
  obtain ⟨compiled, _, hcompile, h⟩ := h
  obtain ⟨hcompiled, rfl⟩ := Reading.comesTo_ofExcept_iff.1 hcompile
  obtain rfl := Except.ok.inj (hselection.symm.trans hcompiled)
  obtain ⟨found, _, hfound, h⟩ := Reading.comesTo_bind_iff.1 h
  obtain ⟨rfl, rfl⟩ := Reading.comesTo_pure_iff.1 h
  obtain ⟨paths, hpaths, start, stop, hstart, hunder, hstop⟩ := hfound.within_of_mapM.1 root hroot
  obtain ⟨sources, scanned, hscan, hunder⟩ := Reading.comesTo_bind_iff.1 hunder
  obtain ⟨_, logged, hlogged, hunder⟩ := Reading.comesTo_bind_iff.1 hunder
  obtain ⟨rfl, rfl⟩ := Reading.comesTo_pure_iff.1 hunder
  have hleft := IsTrans.trans _ _ _ hlogged.allowed_left hstop
  refine ⟨sources, ⟨start, scanned, hstart, hscan, hleft⟩, ?_⟩
  intro source hsource
  refine PathSet.contains_insertAll_iff.2 (Or.inr ⟨source.path, ?_, rfl⟩)
  exact List.mem_flatten.2 ⟨_, hpaths, List.mem_map_of_mem hsource⟩

end Preorder

/-- A stale source that is spared is among all sources. -/
theorem contains_allSources_of_spared (hfs : fs.WellFormed)
    (hmappings : request.policy.mappings = some mappings)
    (hstale : ComesTo (FileSystem.Spares request.sourceRoots path) fs request.staleSources set mid)
    (hpath : path ∈ set.toList)
    (hall : ComesTo (FileSystem.Spares request.sourceRoots path) mid request.allSources all left) :
    all.contains path := by
  obtain ⟨selection, hselection, root, hroot, start, scanned, sources, hstart, hscan,
    ⟨source, hsource, rfl⟩, seen, hseen, hmid, status, hstatus⟩ :=
    exists_scan_of_staleSources hmappings hstale hpath
  obtain ⟨hkept, htext, name, more, hwent⟩ := Source.leadsToFile_of_mem_scan
    (hstart.wellFormed hfs) hroot (FileSystem.size_lt_of_status hstatus) hscan hsource
  -- the file is there, and when it was compared it could be looked up
  have hfile : seen.LeadsToFile source.path := (hseen.kept hkept).of_unlocked hstatus
  obtain ⟨sources', ⟨start', _, hstart', hscan', -⟩, hcontains⟩ :=
    exists_scan_of_allSources hselection hall hroot
  have hfs' := (hstale.allowed_left.trans hstart').wellFormed hfs
  exact hcontains source (Source.mem_scan_of_leadsToFile hfs' htext hwent
    ((hmid.trans hstart').inSight hfile) hscan')

/-! ### From stale sources to a plan -/

/-- How a plan has come about once the search for stale sources is done. -/
theorem planned_cases (h : ComesTo allowed fs request.workload work left) :
    ∃ mid, ComesTo allowed fs request.staleSources work.stale mid ∧
      (work.sources = work.stale.toList ∨
        ∃ sourceSuffix names all last, request.policy = .explicit sourceSuffix names ∧
          ¬ work.stale.isEmpty ∧ ComesTo allowed mid request.allSources all last ∧
          work.sources = all.toList) := by
  rw [workload, Reading.comesTo_bind_iff] at h
  obtain ⟨set, mid, hstale, h⟩ := h
  refine ⟨mid, ?_⟩
  split at h
  case isTrue hempty =>
    obtain ⟨_, _, -, h⟩ := Reading.comesTo_bind_iff.1 h
    obtain ⟨rfl, -⟩ := Reading.comesTo_pure_iff.1 h
    obtain rfl : set = .empty := congrArg PathSet.mk (List.isEmpty_iff.1 hempty)
    exact ⟨hstale, Or.inl rfl⟩
  case isFalse hne =>
    dsimp only at h
    split at h
    case h_1 sourceSuffix names hpolicy =>
      obtain ⟨_, last, hsources, h⟩ := Reading.comesTo_bind_iff.1 h
      obtain ⟨all, hall, rfl⟩ := Reading.comesTo_map_iff.1 hsources
      obtain ⟨_, _, -, h⟩ := Reading.comesTo_bind_iff.1 h
      obtain ⟨rfl, -⟩ := Reading.comesTo_pure_iff.1 h
      exact ⟨hstale, Or.inr ⟨sourceSuffix, names, all, last, hpolicy, hne, hall, rfl⟩⟩
    case h_2 =>
      obtain ⟨_, last, hsources, h⟩ := Reading.comesTo_bind_iff.1 h
      obtain ⟨rfl, -⟩ := Reading.comesTo_pure_iff.1 hsources
      obtain ⟨_, _, -, h⟩ := Reading.comesTo_bind_iff.1 h
      obtain ⟨rfl, -⟩ := Reading.comesTo_pure_iff.1 h
      exact ⟨hstale, Or.inl rfl⟩

/-- A stale source that others spare is planned. -/
theorem exists_planned_of_spared (hfs : fs.WellFormed)
    (h : ComesTo (FileSystem.Spares request.sourceRoots path) fs request.workload work left)
    (hpath : path ∈ work.stale.toList) : ∃ planned ∈ work.sources, planned.Same path := by
  obtain ⟨mid, hstale, hsources | ⟨sourceSuffix, names, all, last, hpolicy, -, hall, hsources⟩⟩ :=
    planned_cases h
  · exact ⟨path, hsources ▸ hpath, rfl⟩
  · have hmappings : request.policy.mappings = some (names.map (.single sourceSuffix)) := by
      rw [hpolicy]
      rfl
    rw [hsources]
    exact PathSet.contains_iff.1 (contains_allSources_of_spared hfs hmappings hstale hpath hall)

/-! ### Main result -/

/-- Whatever others do while a plan is made, nothing is planned if nothing is stale, and without named
targets the sources of the plan are the stale ones. With named targets a stale source is planned if it
stays a file in sight all the while, so the tool is not skipped then. -/
theorem planned_of_spared {σ : Type} {others : Reading.Others σ} {memory : σ}
    (hok : (request.workload.amid others memory fs).1.outcome = .ok work) :
    (work.stale.isEmpty → work.isEmpty) ∧
    ((∀ sourceSuffix names, request.policy ≠ .explicit sourceSuffix names) →
      work.sources = work.stale.toList) ∧
    (fs.WellFormed → ∀ path ∈ work.stale.toList,
      request.workload.Only (FileSystem.Spares request.sourceRoots path) others memory fs →
      (∃ planned ∈ work.sources, planned.Same path) ∧ ¬ work.isEmpty) := by
  have hany : request.workload.Only (fun _ _ => True) others memory fs :=
    Reading.only_of_forall _ fun _ _ => trivial
  obtain ⟨mid, -, hcases⟩ := planned_cases (Reading.comesTo_of_amid hany hok)
  refine ⟨?_, ?_, ?_⟩
  · intro hempty
    rcases hcases with hsources | ⟨_, _, _, _, -, hne, -, -⟩
    · rw [Workload.isEmpty, hsources]
      exact hempty
    · exact absurd hempty hne
  · intro hpolicy
    rcases hcases with hsources | ⟨sourceSuffix, names, _, _, hexplicit, -, -, -⟩
    · exact hsources
    · exact absurd hexplicit (hpolicy sourceSuffix names)
  · intro hfs path hpath honly
    obtain ⟨planned, hplanned, hsame⟩ :=
      exists_planned_of_spared hfs (Reading.comesTo_of_amid honly hok) hpath
    refine ⟨⟨planned, hplanned, hsame⟩, fun hempty => ?_⟩
    rw [Workload.isEmpty, List.isEmpty_iff] at hempty
    rw [hempty] at hplanned
    cases hplanned

/-- Others that make changes after each line of one text, and do nothing else. -/
def changesAfter (text : String) (changes : List FileSystem.Change) : Reading.Others Unit
  | .before _, memory, fs => (memory, fs)
  | .after line, memory, fs =>
    (memory, if line.text = text then changes.foldl FileSystem.Change.apply fs else fs)

/-- Between the walks the stale source is dated back, another source is taken away and a new one is
written. The stale source is planned, with the new one. -/
theorem planned_with_other_sources :
    let fs : FileSystem := [
      FileSystem.Change.write ⟨"src/A.java"⟩ .empty (.afterEpoch 5 (by decide)),
      .write ⟨"src/B.java"⟩ .empty (.afterEpoch 1 (by decide)),
      .write ⟨"out/all.jar"⟩ .empty (.afterEpoch 3 (by decide))].foldl FileSystem.Change.apply
        (.empty (.afterEpoch 0 (by decide)))
    let request : StaleRequest := {
      sourceRoots := [⟨"src"⟩], targetDirectory := ⟨"out"⟩,
      policy := .explicit ".java" ["all.jar"] }
    let others := changesAfter "  src/A.java" [
      .touch ⟨"src/A.java"⟩ (.afterEpoch 1 (by decide)), .remove ⟨"src/B.java"⟩,
      .write ⟨"src/C.java"⟩ .empty (.afterEpoch 1 (by decide))]
    let work : Workload := ⟨⟨[⟨"src/A.java"⟩]⟩, [⟨"src/A.java"⟩, ⟨"src/C.java"⟩]⟩
    fs.WellFormed ∧ (request.workload.amid others () fs).1.outcome = .ok work ∧
    request.workload.Only (FileSystem.Spares request.sourceRoots ⟨"src/A.java"⟩) others () fs ∧
    (∃ planned ∈ work.sources, planned.Same ⟨"src/A.java"⟩) ∧ ¬ work.isEmpty := by
  intro fs request others work
  have hfs : fs.WellFormed := by decide +kernel
  have hok : (request.workload.amid others () fs).1.outcome = .ok work := by
    apply eq_ok_of_toOption
    decide +kernel
  have honly : request.workload.Only
      (FileSystem.Spares request.sourceRoots ⟨"src/A.java"⟩) others () fs := by
    decide +kernel
  obtain ⟨-, -, hplanned⟩ := planned_of_spared hok
  exact ⟨hfs, hok, honly, hplanned hfs ⟨"src/A.java"⟩ (by decide) honly⟩

/-- Between the walks the only source is taken away. It was found to be stale, and nothing is
planned. -/
theorem planned_fails_for_removed_source :
    let fs : FileSystem := [
      FileSystem.Change.write ⟨"src/A.java"⟩ .empty (.afterEpoch 5 (by decide))].foldl
        FileSystem.Change.apply (.empty (.afterEpoch 0 (by decide)))
    let request : StaleRequest := {
      sourceRoots := [⟨"src"⟩], targetDirectory := ⟨"out"⟩,
      policy := .explicit ".java" ["all.jar"] }
    let others := changesAfter "  src/A.java" [.remove ⟨"src/A.java"⟩]
    ∃ work, (request.workload.amid others () fs).1.outcome = .ok work ∧
      ⟨"src/A.java"⟩ ∈ work.stale.toList ∧ (∀ planned ∈ work.sources, ¬ planned.Same ⟨"src/A.java"⟩) ∧
      work.isEmpty ∧ ¬ work.stale.isEmpty := by
  intro fs request others
  refine ⟨⟨⟨[⟨"src/A.java"⟩]⟩, []⟩, ?_, by decide, by decide, by decide, by decide⟩
  apply eq_ok_of_toOption
  decide +kernel

end StaleRequest

end Rebuild
