import Rebuild.Proofs.BuildOrder.Report
import Rebuild.Proofs.Graph.Agreement

/-!
# What an order depends on

A build order depends on where the references of the candidates lead, and on nothing else about them.
Two lists of candidates may differ in every name and version, in the order in which dependencies are
declared and in how often, and in all references that lead outside. As long as the references at each
position lead to the same positions, the two lists have graphs with the same edges. Their rows are
filled in the order of the declarations and need not be the same, but the sorts are. A cycle is then
reported by the same way round, told in the names of either list.
-/

namespace Rebuild.BuildOrder

variable {projects others : List Project} {i j : Nat}

/-- Where the parent of the candidate at a position stands, if it is a candidate. -/
def parentAt? (projects : List Project) (i : Nat) : Option Nat :=
  projects[i]?.bind fun project => project.parent.bind (Project.position? projects)

/-- Where the dependencies of the candidate at a position stand, as far as they are candidates. -/
def dependenciesAt (projects : List Project) (i : Nat) : List Nat :=
  (projects[i]?.map fun project =>
    project.dependencies.filterMap (Project.position? projects)).getD []

/-- Two lists of candidates in which the references at each position lead to the same positions. -/
structure SameLinks (projects others : List Project) : Prop where
  length_eq : projects.length = others.length
  parentAt?_eq : ∀ i, parentAt? projects i = parentAt? others i
  mem_dependenciesAt_iff : ∀ i j, j ∈ dependenciesAt projects i ↔ j ∈ dependenciesAt others i

theorem mem_parentLinks_iff : (i, j) ∈ parentLinks projects ↔ parentAt? projects j = some i := by
  rw [parentLinks, List.mem_filterMap, parentAt?, Option.bind_eq_some_iff]
  constructor
  · rintro ⟨⟨project, child⟩, hmem, hlink⟩
    rw [List.mk_mem_zipIdx_iff_getElem?] at hmem
    obtain ⟨position, hposition, heq⟩ := Option.map_eq_some_iff.1 hlink
    obtain ⟨rfl, rfl⟩ := Prod.mk.inj heq
    exact ⟨project, hmem, hposition⟩
  · rintro ⟨project, hproject, hposition⟩
    refine ⟨(project, j), List.mk_mem_zipIdx_iff_getElem?.2 hproject, ?_⟩
    exact Option.map_eq_some_iff.2 ⟨i, hposition, rfl⟩

theorem mem_dependencyLinks_iff :
    (i, j) ∈ dependencyLinks projects ↔ i ∈ dependenciesAt projects j := by
  rw [dependencyLinks, List.mem_flatMap, dependenciesAt]
  constructor
  · rintro ⟨⟨project, dependent⟩, hmem, hlink⟩
    rw [List.mk_mem_zipIdx_iff_getElem?] at hmem
    obtain ⟨key, hkey, hlink⟩ := List.mem_filterMap.1 hlink
    obtain ⟨position, hposition, heq⟩ := Option.map_eq_some_iff.1 hlink
    obtain ⟨rfl, rfl⟩ := Prod.mk.inj heq
    rw [hmem, Option.map_some, Option.getD_some]
    exact List.mem_filterMap.2 ⟨key, hkey, hposition⟩
  · intro hmem
    cases hproject : projects[j]? with
    | none =>
      rw [hproject] at hmem
      cases hmem
    | some project =>
      rw [hproject, Option.map_some, Option.getD_some] at hmem
      obtain ⟨key, hkey, hposition⟩ := List.mem_filterMap.1 hmem
      refine ⟨(project, j), List.mk_mem_zipIdx_iff_getElem?.2 hproject, ?_⟩
      exact List.mem_filterMap.2 ⟨key, hkey, Option.map_eq_some_iff.2 ⟨i, hposition, rfl⟩⟩

namespace SameLinks

/-- The references that lead to candidates are all that the constraints are made of. -/
theorem agree (hlinks : SameLinks projects others) (hkeys : (projects.map (·.key)).Nodup)
    (hothers : (others.map (·.key)).Nodup) :
    Graph.Agree (constraints projects).1 (constraints others).1 := by
  refine ⟨?_, ?_⟩
  · rw [size_constraints hkeys, size_constraints hothers, hlinks.length_eq]
  · intro i j
    rw [(linked_constraints hkeys).kind?_eq, (linked_constraints hothers).kind?_eq]
    simp only [mem_parentLinks_iff, mem_dependencyLinks_iff, hlinks.parentAt?_eq,
      hlinks.mem_dependenciesAt_iff]

theorem sort_eq (hlinks : SameLinks projects others) (hkeys : (projects.map (·.key)).Nodup)
    (hothers : (others.map (·.key)).Nodup) :
    (constraints others).1.sort = (constraints projects).1.sort :=
  ((hlinks.agree hkeys hothers).sort_eq (linked_constraints hkeys).wellFormed
    (linked_constraints hothers).wellFormed).symm

end SameLinks

/-- Candidates whose references lead to the same positions are put into the same order, or a cycle
over the same positions is reported, of the same kind. -/
theorem outcome_of_sameLinks (hkeys : (projects.map (·.key)).Nodup)
    (hothers : (others.map (·.key)).Nodup) (hlinks : SameLinks projects others) :
    (∃ positions : List Nat, positions.Perm (List.range projects.length) ∧
      (buildOrder projects).outcome = .ok (positions.filterMap (projects[·]?)) ∧
      (buildOrder others).outcome = .ok (positions.filterMap (others[·]?))) ∨
    ∃ kind way, RoundTrip (fun after before => NeededAt projects before after) way ∧
      RoundTrip (fun after before => NeededAt others before after) way ∧
      (buildOrder projects).outcome = .error (cycleError kind (way.map (keyText projects))) ∧
      (buildOrder others).outcome = .error (cycleError kind (way.map (keyText others))) := by
  have hsame := hlinks.sort_eq hkeys hothers
  cases hsort : (constraints projects).1.sort with
  | ok positions =>
    have hperm := (Graph.linearization_of_sort (linked_constraints hkeys).wellFormed hsort).perm
    rw [size_constraints hkeys] at hperm
    refine Or.inl ⟨positions, hperm, ?_, ?_⟩
    · exact (outcome_eq_ok_iff hkeys).2 ⟨positions, hsort, rfl⟩
    · exact (outcome_eq_ok_iff hothers).2 ⟨positions, hsame.trans hsort, rfl⟩
  | error cycle =>
    obtain ⟨hway, herror⟩ := outcome_of_sort_error hkeys hsort
    obtain ⟨hway', herror'⟩ := outcome_of_sort_error hothers (hsame.trans hsort)
    exact Or.inr ⟨reportedKind cycle, wayRound cycle, hway, hway', herror, herror'⟩

/-- Other names and versions, dependencies declared in another order and twice, and other references
to the outside: what the first candidate waits for stands in its row the other way round, and the
same cycle is reported. -/
theorem same_cycle_in_other_names :
    let projects : List Project := [⟨⟨"g", "a"⟩, "1", none, [⟨"g", "b"⟩, ⟨"g", "c"⟩]⟩,
      ⟨⟨"g", "b"⟩, "1", some ⟨"g", "c"⟩, [⟨"g", "gone"⟩]⟩, ⟨⟨"g", "c"⟩, "1", none, [⟨"g", "a"⟩]⟩]
    let others : List Project := [
      ⟨⟨"h", "x"⟩, "2", some ⟨"h", "far"⟩, [⟨"h", "z"⟩, ⟨"h", "y"⟩, ⟨"h", "z"⟩]⟩,
      ⟨⟨"h", "y"⟩, "3", some ⟨"h", "z"⟩, []⟩, ⟨⟨"h", "z"⟩, "4", none, [⟨"i", "k"⟩, ⟨"h", "x"⟩]⟩]
    (projects.map (·.key)).Nodup ∧ (others.map (·.key)).Nodup ∧ SameLinks projects others ∧
    (constraints projects).1.predecessorsOf 0 = [1, 2] ∧
    (constraints others).1.predecessorsOf 0 = [2, 1] ∧
    (buildOrder projects).outcome
      = .error (.dependencyCycle "g:b" "g:a" "g:a -> g:b -> g:c -> g:a") ∧
    (∃ kind way, RoundTrip (fun after before => NeededAt projects before after) way ∧
      (buildOrder projects).outcome = .error (cycleError kind (way.map (keyText projects))) ∧
      (buildOrder others).outcome = .error (cycleError kind (way.map (keyText others)))) := by
  intro projects others
  have hkeys : (projects.map (·.key)).Nodup := by decide
  have hothers : (others.map (·.key)).Nodup := by decide
  have hlinks : SameLinks projects others := by
    refine ⟨rfl, ?_, ?_⟩
    · intro i
      rcases i with _ | _ | _ | i <;> rfl
    · intro i j
      rcases i with _ | _ | _ | i
      · change j ∈ [1, 2] ↔ j ∈ [2, 1, 2]
        simp [or_left_comm, or_comm]
      · rfl
      · rfl
      · rfl
  let cycle : Cycle := ⟨[2, 1, 0], [.parent, .dependency, .dependency]⟩
  have hsort : (constraints projects).1.sort = .error cycle := by decide +kernel
  have hnames : (wayRound cycle).map (keyText projects) = ["g:a", "g:b", "g:c", "g:a"] := by
    decide +kernel
  have hway : " -> ".intercalate ["g:a", "g:b", "g:c", "g:a"] = "g:a -> g:b -> g:c -> g:a" := by
    decide +kernel
  have herror : (buildOrder projects).outcome
      = .error (.dependencyCycle "g:b" "g:a" "g:a -> g:b -> g:c -> g:a") := by
    rw [(outcome_of_sort_error hkeys hsort).2, hnames, ← hway]
    rfl
  have hrow : (constraints projects).1.predecessorsOf 0 = [1, 2] := by decide +kernel
  have hrow' : (constraints others).1.predecessorsOf 0 = [2, 1] := by decide +kernel
  refine ⟨hkeys, hothers, hlinks, hrow, hrow', herror, ?_⟩
  rcases outcome_of_sameLinks hkeys hothers hlinks with ⟨_, _, hok, _⟩ | ⟨kind, way, hway, _, hboth⟩
  · rw [herror] at hok
    cases hok
  · exact ⟨kind, way, hway, hboth⟩

end Rebuild.BuildOrder
