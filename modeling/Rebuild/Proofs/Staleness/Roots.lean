import Rebuild.Proofs.Staleness.Verdict

/-!
# The roots of a search

Each root is searched by itself, and what is found under one does not depend on the others. So a
search succeeds if it does for each root, and then it finds what the searches of the single roots
find. It does not matter in which order the roots are taken, how often one of them is named, and
whether one lies inside another: only which roots there are.

All this is shown for a list of roots that is taken apart into several lists. Single roots are one way
to take it apart, and another list of the same roots is a way with one part.
-/

namespace Rebuild

namespace StaleRequest

variable {request : StaleRequest} {fs : FileSystem} {selection : Glob.Selection} {set : PathSet}
  {path : Path} {roots : List Path} {parts : List (List Path)}

/-- The same search under other roots. -/
def under (request : StaleRequest) (roots : List Path) : StaleRequest :=
  { request with sourceRoots := roots }

@[simp] theorem under_sourceRoots : (request.under roots).sourceRoots = roots := rfl

/-- A search comes to an end without an error. -/
def Succeeds (request : StaleRequest) (fs : FileSystem) : Prop :=
  ∃ set, (request.staleSources.on fs).outcome = .ok set

/-- A search comes to an end without an error, and a path is among what it has found. -/
def Finds (request : StaleRequest) (fs : FileSystem) (path : Path) : Prop :=
  ∃ set, (request.staleSources.on fs).outcome = .ok set ∧ set.contains path

theorem staleAmong_under (mappings : List Mapping) (sources : List Source) :
    (request.under roots).staleAmong mappings sources = request.staleAmong mappings sources := by
  induction sources with
  | nil => rfl
  | cons source sources ih =>
    rw [staleAmong, staleAmong, ih]
    rfl

theorem staleUnder_under (selection : Glob.Selection) (root : Path) :
    (request.under roots).staleUnder selection root = request.staleUnder selection root := by
  simp only [staleUnder, staleAmong_under]
  rfl

theorem succeeds_iff (hselection : request.selection = .ok selection) :
    request.Succeeds fs ↔ ∀ root ∈ request.sourceRoots,
      ∃ paths, ((request.staleUnder selection root).on fs).outcome = .ok paths := by
  rw [← exists_mapM_eq_ok_iff]
  constructor
  · rintro ⟨set, hset⟩
    obtain ⟨selection', found, hselection', hfound, -⟩ := outcome_staleSources_eq_ok_iff.1 hset
    obtain rfl := Except.ok.inj (hselection.symm.trans hselection')
    exact ⟨found, hfound⟩
  · rintro ⟨found, hfound⟩
    exact ⟨_, outcome_staleSources_eq_ok_iff.2 ⟨selection, found, hselection, hfound, rfl⟩⟩

/-! ### Roots taken apart -/

/-- The roots of a search are those of the parts. -/
def TakenApart (request : StaleRequest) (parts : List (List Path)) : Prop :=
  ∀ root, root ∈ request.sourceRoots ↔ ∃ part ∈ parts, root ∈ part

theorem takenApart_single (request : StaleRequest) :
    request.TakenApart (request.sourceRoots.map fun root => [root]) := by
  simp [TakenApart]

theorem takenApart_whole (h : ∀ root, root ∈ roots ↔ root ∈ request.sourceRoots) :
    request.TakenApart [roots] := by
  simp [TakenApart, h]

theorem TakenApart.succeeds_iff (h : request.TakenApart parts)
    (hselection : request.selection = .ok selection) :
    request.Succeeds fs ↔ ∀ part ∈ parts, (request.under part).Succeeds fs := by
  have hpart : ∀ part, (request.under part).Succeeds fs ↔
      ∀ root ∈ part, ∃ paths, ((request.staleUnder selection root).on fs).outcome = .ok paths := by
    intro part
    have hsame : (request.under part).selection = .ok selection := hselection
    rw [StaleRequest.succeeds_iff hsame]
    simp only [staleUnder_under, under_sourceRoots]
  rw [StaleRequest.succeeds_iff hselection]
  simp only [hpart, h _]
  constructor
  · intro hroots part hmem root hroot
    exact hroots root ⟨part, hmem, hroot⟩
  · rintro hparts root ⟨part, hmem, hroot⟩
    exact hparts part hmem root hroot

theorem TakenApart.contains_iff (h : request.TakenApart parts)
    (hok : (request.staleSources.on fs).outcome = .ok set) :
    set.contains path ↔ ∃ part ∈ parts, (request.under part).Finds fs path := by
  obtain ⟨selection, _, hselection, _⟩ := outcome_staleSources_eq_ok_iff.1 hok
  constructor
  · intro hpath
    obtain ⟨source, ⟨root, hroot, hsource⟩, hsame, hstale⟩ :=
      (contains_staleSources_iff hok).1 hpath
    obtain ⟨part, hpart, hmem⟩ := (h root).1 hroot
    -- the part does not fail for another of its roots, since the whole search has not
    obtain ⟨found, hfound⟩ := (h.succeeds_iff hselection).1 ⟨set, hok⟩ part hpart
    refine ⟨part, hpart, found, hfound, ?_⟩
    exact (contains_staleSources_iff hfound).2 ⟨source, ⟨root, hmem, hsource⟩, hsame, hstale⟩
  · rintro ⟨part, hpart, found, hfound, hpath⟩
    obtain ⟨source, ⟨root, hmem, hsource⟩, hsame, hstale⟩ :=
      (contains_staleSources_iff hfound).1 hpath
    have hroot : root ∈ request.sourceRoots := (h root).2 ⟨part, hpart, hmem⟩
    exact (contains_staleSources_iff hok).2 ⟨source, ⟨root, hroot, hsource⟩, hsame, hstale⟩

/-! ### Main result -/

/-- A search whose patterns can be read succeeds if it does under each single root, and then it finds
what is found under one of them. For any other list of the same roots it succeeds as well, with the
same set. And if the roots are taken apart it succeeds if it does for each part, and it finds what is
found for one of them. -/
theorem staleSources_under_roots (hselection : request.selection = .ok selection) :
    (request.Succeeds fs ↔ ∀ root ∈ request.sourceRoots, (request.under [root]).Succeeds fs) ∧
    (∀ set, (request.staleSources.on fs).outcome = .ok set → ∀ path,
      set.contains path ↔ ∃ root ∈ request.sourceRoots, (request.under [root]).Finds fs path) ∧
    (∀ roots, (∀ root, root ∈ roots ↔ root ∈ request.sourceRoots) →
      (request.Succeeds fs ↔ (request.under roots).Succeeds fs) ∧
      ∀ set other, (request.staleSources.on fs).outcome = .ok set →
        ((request.under roots).staleSources.on fs).outcome = .ok other → set.Same other) ∧
    ∀ parts, request.TakenApart parts →
      (request.Succeeds fs ↔ ∀ part ∈ parts, (request.under part).Succeeds fs) ∧
      ∀ set, (request.staleSources.on fs).outcome = .ok set → ∀ path,
        set.contains path ↔ ∃ part ∈ parts, (request.under part).Finds fs path := by
  refine ⟨?_, ?_, ?_, ?_⟩
  · rw [request.takenApart_single.succeeds_iff hselection, List.forall_mem_map]
  · intro set hset path
    rw [request.takenApart_single.contains_iff hset]
    simp only [List.mem_map, exists_exists_and_eq_and]
  · intro roots hroots
    have hwhole : request.TakenApart [roots] := takenApart_whole hroots
    refine ⟨?_, ?_⟩
    · rw [hwhole.succeeds_iff hselection, List.forall_mem_singleton]
    · intro set other hset hother
      apply (ascending_staleSources hset).same (ascending_staleSources hother)
      intro path
      rw [hwhole.contains_iff hset]
      simp [Finds, hother]
  · intro parts hparts
    exact ⟨hparts.succeeds_iff hselection, fun set hset path => hparts.contains_iff hset⟩

/-- One root lies inside the other, and the file below both is stale only for the inner one. -/
theorem staleSources_under_nested_roots :
    let fs : FileSystem := [
      FileSystem.Change.write ⟨"src/a/X.java"⟩ .empty (.afterEpoch 5 (by decide)),
      .write ⟨"out/a/X.class"⟩ .empty (.afterEpoch 10 (by decide))].foldl FileSystem.Change.apply
        (.empty (.afterEpoch 0 (by decide)))
    let request : StaleRequest := {
      sourceRoots := [⟨"src"⟩, ⟨"src/a"⟩], targetDirectory := ⟨"out"⟩,
      policy := .suffixes ".java" [".class"] }
    let set : PathSet := ⟨[⟨"src/a/X.java"⟩]⟩
    (∃ selection, request.selection = .ok selection) ∧
    (request.staleSources.on fs).outcome = .ok set ∧
    (request.under [⟨"src"⟩]).Succeeds fs ∧ ¬ (request.under [⟨"src"⟩]).Finds fs ⟨"src/a/X.java"⟩ ∧
    (request.under [⟨"src/a"⟩]).Finds fs ⟨"src/a/X.java"⟩ ∧
    (request.under [⟨"src/a"⟩, ⟨"src"⟩, ⟨"src/a"⟩]).Succeeds fs := by
  intro fs request set
  have hok : (request.staleSources.on fs).outcome = .ok set := by
    apply eq_ok_of_toOption
    decide +kernel
  have houter : ((request.under [⟨"src"⟩]).staleSources.on fs).outcome = .ok .empty := by
    apply eq_ok_of_toOption
    decide +kernel
  have hnot : ¬ (request.under [⟨"src"⟩]).Finds fs ⟨"src/a/X.java"⟩ := by
    rintro ⟨found, hfound, hpath⟩
    obtain rfl := Except.ok.inj (houter.symm.trans hfound)
    cases hpath
  have hmember : set.contains ⟨"src/a/X.java"⟩ := by decide +kernel
  obtain ⟨selection, _, hselection, _⟩ := outcome_staleSources_eq_ok_iff.1 hok
  obtain ⟨hsingle, hunion, hsame, -⟩ :=
    @staleSources_under_roots request fs selection hselection
  have hinner : (request.under [⟨"src/a"⟩]).Finds fs ⟨"src/a/X.java"⟩ := by
    obtain ⟨root, hroot, hfinds⟩ := (hunion set hok _).1 hmember
    rcases List.mem_pair.1 hroot with rfl | rfl
    · exact absurd hfinds hnot
    · exact hfinds
  have hothers : (request.under [⟨"src/a"⟩, ⟨"src"⟩, ⟨"src/a"⟩]).Succeeds fs := by
    refine (hsame _ ?_).1.1 ⟨set, hok⟩
    intro root
    simp only [request, List.mem_cons, List.not_mem_nil, or_false]
    exact or_iff_right_of_imp Or.inr
  exact ⟨⟨selection, hselection⟩, hok, hsingle.1 ⟨set, hok⟩ _ List.mem_cons_self, hnot, hinner,
    hothers⟩

end StaleRequest

end Rebuild
