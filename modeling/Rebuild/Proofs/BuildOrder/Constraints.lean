import Mathlib.Data.List.Induction
import Rebuild.BuildOrder
import Rebuild.Proofs.Graph.Edges

/-!
# The constraints between candidates

The graph of the candidates is built in two passes: parents first, then dependencies. The second
pass looks at the graph while it extends it, to see whether a dependency runs against a parent edge.
It never makes a parent edge of one that was none, so what it sees are the edges of the first pass,
and the order in which dependencies are declared plays no part.

With different keys a position stands for a candidate. So there is an edge between two positions
exactly where the one candidate must come before the other.
-/

namespace Rebuild

namespace EdgeKind

@[simp] theorem merge_parent (old : Option EdgeKind) : merge old .parent = .parent := by
  rcases old with _ | (_ | _) <;> rfl

theorem merge_dependency_eq_parent_iff {old : Option EdgeKind} :
    merge old .dependency = .parent ↔ old = some .parent := by
  rcases old with _ | (_ | _) <;> simp [merge]

@[simp] theorem merge_merge_dependency (old : Option EdgeKind) :
    merge (some (merge old .dependency)) .dependency = merge old .dependency := by
  rcases old with _ | (_ | _) <;> rfl

end EdgeKind

namespace BuildOrder

open Rebuild.Graph

variable {projects : List Project} {g : Graph} {links : List (Nat × Nat)} {i j : Nat}

/-- The one project must come before the other: as its parent, or as a dependency of it that is not
its child. -/
def Needed (before after : Project) : Prop :=
  after.parent = some before.key
    ∨ before.key ∈ after.dependencies ∧ before.parent ≠ some after.key

/-! ### The vertices -/

theorem vertices_append_singleton (project : Project) :
    vertices (projects ++ [project]) = (vertices projects).addVertex project.key.text := by
  rw [vertices, List.foldl_append]
  rfl

theorem size_vertices (projects : List Project) : (vertices projects).size = projects.length := by
  induction projects using List.reverseRecOn with
  | nil => rfl
  | append_singleton init last ih =>
    rw [vertices_append_singleton, size_addVertex, ih, List.length_append, List.length_singleton]

theorem kind?_vertices (projects : List Project) : (vertices projects).kind? i j = none := by
  induction projects using List.reverseRecOn with
  | nil => rfl
  | append_singleton init last ih => rw [vertices_append_singleton, kind?_addVertex, ih]

theorem wellFormed_vertices (projects : List Project) : (vertices projects).WellFormed := by
  induction projects using List.reverseRecOn with
  | nil => exact WellFormed.empty
  | append_singleton init last ih =>
    rw [vertices_append_singleton]
    exact ih.addVertex _

/-! ### The two passes -/

/-- Links between vertices. -/
def InRange (g : Graph) (links : List (Nat × Nat)) : Prop :=
  ∀ link ∈ links, link.1 < g.size ∧ link.2 < g.size

/-- What links make of a graph: it keeps its vertices and stays well formed, and a rule says of what
kind each edge is. -/
structure Linked (g g' : Graph) (rule : Nat → Nat → Option EdgeKind) : Prop where
  wellFormed : g'.WellFormed
  size_eq : g'.size = g.size
  kind?_eq : ∀ i j, g'.kind? i j = rule i j

theorem linked_foldl_addParent (hg : g.WellFormed) (hlinks : InRange g links) :
    Linked g (links.foldl addParent g)
      fun i j => if (i, j) ∈ links then some .parent else g.kind? i j := by
  induction links generalizing g with
  | nil => exact ⟨hg, rfl, fun i j => by simp⟩
  | cons link rest ih =>
    obtain ⟨hfirst, hrest⟩ := List.forall_mem_cons.1 hlinks
    have hstep : (addParent g link).WellFormed := hg.addEdge hfirst.1 hfirst.2
    have hsize : (addParent g link).size = g.size := size_addEdge
    obtain ⟨hwf, hsize', hkind⟩ := ih hstep (by rwa [InRange, hsize])
    refine ⟨hwf, hsize'.trans hsize, ?_⟩
    intro i j
    rw [List.foldl_cons, hkind, addParent, kind?_addEdge (hg.lt_length_leaving hfirst.1),
      EdgeKind.merge_parent]
    by_cases hmem : (i, j) ∈ rest
    · simp [hmem]
    · simp [hmem, Prod.ext_iff]

/-- The graph after the dependency of a link, without the log. -/
def enforce (g : Graph) (link : Nat × Nat) : Graph :=
  if g.kind? link.2 link.1 = some .parent then g else (g.addEdge link.1 link.2 .dependency).1

theorem fst_foldl_addDependency (lines : List LogLine) :
    (links.foldl addDependency (g, lines)).1 = links.foldl enforce g := by
  induction links generalizing g lines with
  | nil => rfl
  | cons link rest ih =>
    rw [List.foldl_cons, List.foldl_cons, addDependency, enforce]
    split
    · exact ih _
    · exact ih _

theorem linked_enforce (hg : g.WellFormed) {link : Nat × Nat}
    (hlink : link.1 < g.size ∧ link.2 < g.size) :
    Linked g (enforce g link) fun i j =>
      if (i, j) = link ∧ g.kind? j i ≠ some .parent
        then some (EdgeKind.merge (g.kind? i j) .dependency) else g.kind? i j := by
  unfold enforce
  split
  case isTrue hchild =>
    refine ⟨hg, rfl, ?_⟩
    intro i j
    rw [if_neg]
    rintro ⟨rfl, hparent⟩
    exact hparent hchild
  case isFalse hchild =>
    refine ⟨hg.addEdge hlink.1 hlink.2, size_addEdge, ?_⟩
    intro i j
    rw [kind?_addEdge (hg.lt_length_leaving hlink.1)]
    by_cases hij : i = link.1 ∧ j = link.2
    · obtain ⟨rfl, rfl⟩ := hij
      simp [hchild]
    · rw [if_neg hij, if_neg]
      rintro ⟨rfl, _⟩
      exact hij ⟨rfl, rfl⟩

/-- A dependency is never a reason for a parent edge, and it leaves those that there are. -/
theorem kind?_enforce_eq_parent_iff (hg : g.WellFormed) {link : Nat × Nat}
    (hlink : link.1 < g.size ∧ link.2 < g.size) :
    (enforce g link).kind? i j = some .parent ↔ g.kind? i j = some .parent := by
  rw [(linked_enforce hg hlink).kind?_eq]
  split
  · rw [Option.some.injEq, EdgeKind.merge_dependency_eq_parent_iff]
  · rfl

/-- The second pass reads the parent edges that it was given: it makes none. -/
theorem linked_foldl_enforce (hg : g.WellFormed) (hlinks : InRange g links) :
    Linked g (links.foldl enforce g) fun i j =>
      if (i, j) ∈ links ∧ g.kind? j i ≠ some .parent
        then some (EdgeKind.merge (g.kind? i j) .dependency) else g.kind? i j := by
  induction links generalizing g with
  | nil => exact ⟨hg, rfl, fun i j => by simp⟩
  | cons link rest ih =>
    obtain ⟨hfirst, hrest⟩ := List.forall_mem_cons.1 hlinks
    obtain ⟨hwf, hsize, hkind⟩ := linked_enforce hg hfirst
    obtain ⟨hwf', hsize', hkind'⟩ := ih hwf (by rwa [InRange, hsize])
    refine ⟨hwf', hsize'.trans hsize, ?_⟩
    intro i j
    rw [List.foldl_cons, hkind']
    -- The test for a child reads the same at every link, whatever links there were before.
    simp only [ne_eq, kind?_enforce_eq_parent_iff hg hfirst]
    rw [hkind]
    by_cases hchild : g.kind? j i = some .parent
    · simp [hchild]
    · by_cases hlink : (i, j) = link
      · simp [hchild, hlink]
      · simp [hchild, hlink]

/-! ### Positions and candidates -/

theorem position?_eq_some_iff (hkeys : (projects.map (·.key)).Nodup) {key : ProjectKey} :
    Project.position? projects key = some i ↔ ∃ p, projects[i]? = some p ∧ p.key = key := by
  rw [Project.position?, List.findIdx?_eq_some_iff_getElem]
  constructor
  · rintro ⟨hi, hkey, _⟩
    exact ⟨_, List.getElem?_eq_getElem hi, of_decide_eq_true hkey⟩
  · rintro ⟨p, hp, hkey⟩
    obtain ⟨hi, rfl⟩ := List.getElem?_eq_some_iff.1 hp
    refine ⟨hi, decide_eq_true hkey, ?_⟩
    intro j hj hsame
    have hpair := List.pairwise_iff_getElem.1 (List.pairwise_map.1 hkeys) j i (by omega) hi hj
    exact hpair ((of_decide_eq_true hsame).trans hkey.symm)

theorem mem_parentLinks (hkeys : (projects.map (·.key)).Nodup) :
    (i, j) ∈ parentLinks projects ↔ ∃ before after, projects[i]? = some before ∧
      projects[j]? = some after ∧ after.parent = some before.key := by
  rw [parentLinks, List.mem_filterMap]
  constructor
  · rintro ⟨⟨after, child⟩, hmem, hlink⟩
    rw [List.mk_mem_zipIdx_iff_getElem?] at hmem
    obtain ⟨position, hposition, heq⟩ := Option.map_eq_some_iff.1 hlink
    obtain ⟨rfl, rfl⟩ := Prod.mk.inj heq
    obtain ⟨key, hparent, hkey⟩ := Option.bind_eq_some_iff.1 hposition
    obtain ⟨before, hbefore, rfl⟩ := (position?_eq_some_iff hkeys).1 hkey
    exact ⟨before, after, hbefore, hmem, hparent⟩
  · rintro ⟨before, after, hbefore, hafter, hparent⟩
    have hkey := (position?_eq_some_iff hkeys).2 ⟨before, hbefore, rfl⟩
    refine ⟨(after, j), List.mk_mem_zipIdx_iff_getElem?.2 hafter, ?_⟩
    simp [hparent, hkey]

theorem mem_dependencyLinks (hkeys : (projects.map (·.key)).Nodup) :
    (i, j) ∈ dependencyLinks projects ↔ ∃ before after, projects[i]? = some before ∧
      projects[j]? = some after ∧ before.key ∈ after.dependencies := by
  rw [dependencyLinks, List.mem_flatMap]
  constructor
  · rintro ⟨⟨after, dependent⟩, hmem, hlink⟩
    rw [List.mk_mem_zipIdx_iff_getElem?] at hmem
    obtain ⟨key, hdependency, hlink⟩ := List.mem_filterMap.1 hlink
    obtain ⟨position, hposition, heq⟩ := Option.map_eq_some_iff.1 hlink
    obtain ⟨rfl, rfl⟩ := Prod.mk.inj heq
    obtain ⟨before, hbefore, rfl⟩ := (position?_eq_some_iff hkeys).1 hposition
    exact ⟨before, after, hbefore, hmem, hdependency⟩
  · rintro ⟨before, after, hbefore, hafter, hdependency⟩
    have hkey := (position?_eq_some_iff hkeys).2 ⟨before, hbefore, rfl⟩
    refine ⟨(after, j), List.mk_mem_zipIdx_iff_getElem?.2 hafter, ?_⟩
    exact List.mem_filterMap.2 ⟨before.key, hdependency, by rw [hkey, Option.map_some]⟩

theorem inRange_of_positions (hlinks : ∀ i j, (i, j) ∈ links →
      ∃ before after, projects[i]? = some before ∧ projects[j]? = some after)
    (hsize : g.size = projects.length) : InRange g links := by
  rintro ⟨i, j⟩ hmem
  obtain ⟨before, after, hbefore, hafter⟩ := hlinks i j hmem
  rw [hsize]
  exact ⟨(List.getElem?_eq_some_iff.1 hbefore).1, (List.getElem?_eq_some_iff.1 hafter).1⟩

/-! ### The graph of the candidates -/

/-- The graph after the first pass: the candidates, and the parents among them. -/
def inherited (projects : List Project) : Graph :=
  (parentLinks projects).foldl addParent (vertices projects)

theorem fst_constraints (projects : List Project) :
    (constraints projects).1 = (dependencyLinks projects).foldl enforce (inherited projects) :=
  fst_foldl_addDependency []

theorem linked_inherited (hkeys : (projects.map (·.key)).Nodup) :
    Linked (vertices projects) (inherited projects) fun i j =>
      if (i, j) ∈ parentLinks projects then some .parent else none := by
  have hparents : InRange (vertices projects) (parentLinks projects) := by
    apply inRange_of_positions _ (size_vertices projects)
    intro i j hmem
    obtain ⟨before, after, hbefore, hafter, _⟩ := (mem_parentLinks hkeys).1 hmem
    exact ⟨before, after, hbefore, hafter⟩
  obtain ⟨hwf, hsize, hkind⟩ := linked_foldl_addParent (wellFormed_vertices projects) hparents
  refine ⟨hwf, hsize, ?_⟩
  intro i j
  rw [inherited, hkind, kind?_vertices]

theorem inRange_dependencyLinks (hkeys : (projects.map (·.key)).Nodup) :
    InRange (inherited projects) (dependencyLinks projects) := by
  apply inRange_of_positions _ ((linked_inherited hkeys).size_eq.trans (size_vertices projects))
  intro i j hmem
  obtain ⟨before, after, hbefore, hafter, _⟩ := (mem_dependencyLinks hkeys).1 hmem
  exact ⟨before, after, hbefore, hafter⟩

/-- The graph of candidates with different keys, in terms of the links between their positions. -/
theorem linked_constraints (hkeys : (projects.map (·.key)).Nodup) :
    Linked (vertices projects) (constraints projects).1 fun i j =>
      if (i, j) ∈ parentLinks projects then some .parent
      else if (i, j) ∈ dependencyLinks projects ∧ (j, i) ∉ parentLinks projects
        then some .dependency else none := by
  obtain ⟨hwf, hsize, hkind⟩ := linked_inherited hkeys
  obtain ⟨hwf', hsize', hkind'⟩ := linked_foldl_enforce hwf (inRange_dependencyLinks hkeys)
  rw [fst_constraints]
  refine ⟨hwf', hsize'.trans hsize, ?_⟩
  intro i j
  rw [hkind']
  simp only [hkind]
  by_cases hparent : (i, j) ∈ parentLinks projects
  · simp [hparent, EdgeKind.merge]
  · by_cases hchild : (j, i) ∈ parentLinks projects
    · simp [hparent, hchild]
    · simp [hparent, hchild, EdgeKind.merge]

theorem size_constraints (hkeys : (projects.map (·.key)).Nodup) :
    (constraints projects).1.size = projects.length :=
  (linked_constraints hkeys).size_eq.trans (size_vertices projects)

/-- The kind of the edge between two candidates: what the one declares of the other decides it. -/
theorem kind?_constraints (hkeys : (projects.map (·.key)).Nodup) {before after : Project}
    (hbefore : projects[i]? = some before) (hafter : projects[j]? = some after) :
    (constraints projects).1.kind? i j
      = if after.parent = some before.key then some .parent
        else if before.key ∈ after.dependencies ∧ before.parent ≠ some after.key
          then some .dependency else none := by
  have hparent : (i, j) ∈ parentLinks projects ↔ after.parent = some before.key := by
    rw [mem_parentLinks hkeys, hbefore, hafter]
    simp
  have hchild : (j, i) ∈ parentLinks projects ↔ before.parent = some after.key := by
    rw [mem_parentLinks hkeys, hbefore, hafter]
    simp
  have hdependency : (i, j) ∈ dependencyLinks projects ↔ before.key ∈ after.dependencies := by
    rw [mem_dependencyLinks hkeys, hbefore, hafter]
    simp
  rw [(linked_constraints hkeys).kind?_eq]
  simp only [hparent, hchild, hdependency, ne_eq]

theorem edge_constraints (hkeys : (projects.map (·.key)).Nodup) {before after : Project}
    (hbefore : projects[i]? = some before) (hafter : projects[j]? = some after) :
    (constraints projects).1.Edge i j ↔ Needed before after := by
  rw [Edge, kind?_constraints hkeys hbefore hafter, Needed]
  by_cases hparent : after.parent = some before.key
  · simp [hparent]
  · by_cases hdependency : before.key ∈ after.dependencies ∧ before.parent ≠ some after.key
    · rw [if_neg hparent, if_pos hdependency]
      simp [hdependency]
    · rw [if_neg hparent, if_neg hdependency]
      simp [hparent, hdependency]

/-- An edge leads from one position to another exactly where the one candidate is needed by the
other. -/
theorem edge_constraints_iff (hkeys : (projects.map (·.key)).Nodup) :
    (constraints projects).1.Edge i j ↔ ∃ before after, projects[i]? = some before ∧
      projects[j]? = some after ∧ Needed before after := by
  have hwf := (linked_constraints hkeys).wellFormed
  constructor
  · intro hedge
    have hi := hwf.lt_of_edge_left hedge
    have hj := hwf.lt_of_edge_right hedge
    rw [size_constraints hkeys] at hi hj
    have hbefore := List.getElem?_eq_getElem hi
    have hafter := List.getElem?_eq_getElem hj
    exact ⟨_, _, hbefore, hafter, (edge_constraints hkeys hbefore hafter).1 hedge⟩
  · rintro ⟨before, after, hbefore, hafter, hneeded⟩
    exact (edge_constraints hkeys hbefore hafter).2 hneeded

end BuildOrder

end Rebuild
