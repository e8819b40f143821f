import Rebuild.Proofs.BuildOrder.Report

/-!
# What becomes of declarations

A candidate declares a parent and dependencies. A parent that is a candidate becomes a parent edge. A
dependency that is a candidate becomes a dependency edge, unless one of the two is the other's parent:
then either the parent edge says it already, or it is dropped and the log says so.

The lines about dropped dependencies are written while the second pass adds edges, by a test on the
graph as it is at that moment and with the labels that it has then. That pass neither makes parent
edges nor changes labels, so the test and the text depend on the first pass only. The log can
therefore be told from the declarations: one line for each declaration of a dependency on an own
child, in the order in which they are declared.
-/

namespace Rebuild

namespace Reported

variable {α : Type}

/-- Lines that are logged first stand first. -/
theorem lines_logAll_bind (lines : List LogLine) (next : Unit → Reported α) :
    (logAll lines >>= next).lines = lines ++ (next ()).lines := rfl

end Reported

namespace BuildOrder

open Rebuild.Graph

variable {projects order : List Project} {project before after : Project} {key : ProjectKey}
  {g : Graph} {links : List (Nat × Nat)} {link : Nat × Nat} {i j : Nat}

/-! ### The edges between candidates -/

/-- The candidate at the first position is the declared parent of the one at the second. -/
def ParentAt (projects : List Project) (i j : Nat) : Prop :=
  ∃ before after, projects[i]? = some before ∧ projects[j]? = some after ∧
    after.parent = some before.key

/-- The candidate at the second position declares a dependency on the one at the first, and neither is
the declared parent of the other. -/
def DependencyAt (projects : List Project) (i j : Nat) : Prop :=
  ∃ before after, projects[i]? = some before ∧ projects[j]? = some after ∧
    before.key ∈ after.dependencies ∧ after.parent ≠ some before.key ∧
    before.parent ≠ some after.key

/-- Every candidate is the vertex of its position, labelled with its key and found by it, and between
the vertices there are the edges that the candidates declare. -/
structure Depicts (g : Graph) (projects : List Project) : Prop where
  labels_eq : g.labels = projects.map (·.key.text)
  position?_eq : ∀ i project, projects[i]? = some project →
    Project.position? projects project.key = some i
  parent_iff : ∀ i j, g.kind? i j = some .parent ↔ ParentAt projects i j
  dependency_iff : ∀ i j, g.kind? i j = some .dependency ↔ DependencyAt projects i j
  none_iff : ∀ i j, g.kind? i j = none ↔ ¬ ParentAt projects i j ∧ ¬ DependencyAt projects i j

theorem DependencyAt.not_parentAt (h : DependencyAt projects i j) : ¬ ParentAt projects i j := by
  obtain ⟨before, after, hbefore, hafter, -, hother, -⟩ := h
  intro hparentAt
  obtain ⟨before', after', hbefore', hafter', hparent⟩ := hparentAt
  obtain rfl := Option.some.inj (hbefore.symm.trans hbefore')
  obtain rfl := Option.some.inj (hafter.symm.trans hafter')
  exact hother hparent

theorem kind?_of_parentAt (hkeys : (projects.map (·.key)).Nodup) (h : ParentAt projects i j) :
    (constraints projects).1.kind? i j = some .parent := by
  obtain ⟨before, after, hbefore, hafter, hparent⟩ := h
  rw [kind?_constraints hkeys hbefore hafter, if_pos hparent]

theorem kind?_of_dependencyAt (hkeys : (projects.map (·.key)).Nodup)
    (h : DependencyAt projects i j) :
    (constraints projects).1.kind? i j = some .dependency := by
  obtain ⟨before, after, hbefore, hafter, hdeclared, hparent, hchild⟩ := h
  rw [kind?_constraints hkeys hbefore hafter, if_neg hparent, if_pos ⟨hdeclared, hchild⟩]

/-- An edge is there because of a declaration: the one candidate needs the other as its parent or as a
dependency. -/
theorem kind?_of_neither (hkeys : (projects.map (·.key)).Nodup)
    (hparentAt : ¬ ParentAt projects i j) (hdependencyAt : ¬ DependencyAt projects i j) :
    (constraints projects).1.kind? i j = none := by
  by_contra hkind
  have hedge : (constraints projects).1.Edge i j := Option.isSome_iff_ne_none.2 hkind
  obtain ⟨before, after, hbefore, hafter, hneeded⟩ := (edge_constraints_iff hkeys).1 hedge
  have hparent : after.parent ≠ some before.key :=
    fun hparent => hparentAt ⟨before, after, hbefore, hafter, hparent⟩
  obtain ⟨hdeclared, hchild⟩ := hneeded.resolve_left hparent
  exact hdependencyAt ⟨before, after, hbefore, hafter, hdeclared, hparent, hchild⟩

theorem depicts_constraints (hkeys : (projects.map (·.key)).Nodup) :
    Depicts (constraints projects).1 projects := by
  have hkind : ∀ i j,
      (ParentAt projects i j ∧ ¬ DependencyAt projects i j ∧
        (constraints projects).1.kind? i j = some .parent) ∨
      (¬ ParentAt projects i j ∧ DependencyAt projects i j ∧
        (constraints projects).1.kind? i j = some .dependency) ∨
      (¬ ParentAt projects i j ∧ ¬ DependencyAt projects i j ∧
        (constraints projects).1.kind? i j = none) := by
    intro i j
    by_cases hparentAt : ParentAt projects i j
    · exact Or.inl ⟨hparentAt, fun h => h.not_parentAt hparentAt, kind?_of_parentAt hkeys hparentAt⟩
    · by_cases hdependencyAt : DependencyAt projects i j
      · exact Or.inr (Or.inl ⟨hparentAt, hdependencyAt, kind?_of_dependencyAt hkeys hdependencyAt⟩)
      · exact Or.inr (Or.inr
          ⟨hparentAt, hdependencyAt, kind?_of_neither hkeys hparentAt hdependencyAt⟩)
  refine ⟨labels_constraints projects, ?_, ?_, ?_, ?_⟩
  · intro i project hproject
    exact (position?_eq_some_iff hkeys).2 ⟨project, hproject, rfl⟩
  all_goals
    intro i j
    rcases hkind i j with h | h | h <;> simp [h]

/-! ### What the log says -/

/-- The line about a dependency of a project on its own child. -/
def ignoringLine (project child : String) : LogLine :=
  ⟨.debug, s!"Ignoring dependency of {project} on its child {child}; parent is built first"⟩

/-- The key is that of a candidate whose declared parent is the project. -/
def IsChildOf (projects : List Project) (project : Project) (key : ProjectKey) : Prop :=
  ∃ child ∈ projects, child.key = key ∧ child.parent = some project.key

instance : Decidable (IsChildOf projects project key) :=
  inferInstanceAs (Decidable (∃ child ∈ projects, child.key = key ∧ child.parent = some project.key))

/-- The lines about one candidate: one for each time that it declares a dependency on its own child,
in order. -/
def ignoringLinesOf (projects : List Project) (project : Project) : List LogLine :=
  (project.dependencies.filter (IsChildOf projects project)).map fun key =>
    ignoringLine project.key.text key.text

/-- The lines about all candidates, in order. -/
def ignoringLines (projects : List Project) : List LogLine :=
  projects.flatMap (ignoringLinesOf projects)

/-- The line about an order that was found. An order without candidates has none. -/
def orderedLines : Except Error (List Project) → List LogLine
  | .ok (first :: rest) => [⟨.debug, s!"Ordered {(first :: rest).length} build candidates"⟩]
  | _ => []

theorem isChildOf_iff (hkeys : (projects.map (·.key)).Nodup) {child : Project}
    (hchild : child ∈ projects) :
    IsChildOf projects project child.key ↔ child.parent = some project.key := by
  constructor
  · intro h
    obtain ⟨other, hother, hkey, hparent⟩ := h
    rwa [← List.inj_on_of_nodup_map hkeys hother hchild hkey]
  · intro hparent
    exact ⟨child, hchild, rfl, hparent⟩

theorem mem_ignoringLines (hafter : after ∈ projects) (hkey : key ∈ after.dependencies)
    (hchild : IsChildOf projects after key) :
    ignoringLine after.key.text key.text ∈ ignoringLines projects := by
  apply List.mem_flatMap.2
  refine ⟨after, hafter, ?_⟩
  apply List.mem_map_of_mem
  exact List.mem_filter.2 ⟨hkey, decide_eq_true hchild⟩

/-! ### The second pass -/

/-- The line about a link, if its dependency is dropped. -/
def notice? (g : Graph) (link : Nat × Nat) : Option LogLine :=
  if g.kind? link.2 link.1 = some .parent
    then some (ignoringLine (g.label link.2) (g.label link.1)) else none

theorem addDependency_eq (lines : List LogLine) :
    addDependency (g, lines) link = (enforce g link, lines ++ (notice? g link).toList) := by
  rw [addDependency, enforce, notice?]
  split
  · simp only [ignoringLine, Option.toList_some, String.append_assoc]
  · rw [Option.toList_none, List.append_nil]

theorem notice?_enforce (hg : g.WellFormed) (hlink : link.1 < g.size ∧ link.2 < g.size) :
    notice? (enforce g link) = notice? g := by
  funext other
  rw [notice?, notice?]
  simp only [kind?_enforce_eq_parent_iff hg hlink, label, label?, labels_enforce]

/-- The lines of the second pass can be told from the graph that it was given. -/
theorem snd_foldl_addDependency (hg : g.WellFormed) (hlinks : InRange g links)
    (lines : List LogLine) :
    (links.foldl addDependency (g, lines)).2 = lines ++ links.filterMap (notice? g) := by
  induction links generalizing g lines with
  | nil => rw [List.foldl_nil, List.filterMap_nil, List.append_nil]
  | cons link rest ih =>
    obtain ⟨hfirst, hrest⟩ := List.forall_mem_cons.1 hlinks
    obtain ⟨hwf, hsize, -⟩ := linked_enforce hg hfirst
    rw [List.foldl_cons, addDependency_eq, ih hwf (by rwa [InRange, hsize]),
      notice?_enforce hg hfirst, List.append_assoc, List.filterMap_cons]
    cases notice? g link with
    | none => rfl
    | some line => rfl

/-! ### From links to declarations -/

theorem label_inherited (hproject : projects[i]? = some project) :
    (inherited projects).label i = project.key.text := by
  rw [label, label?, labels_inherited, List.getElem?_map, hproject]
  rfl

theorem kind?_inherited_eq_parent_iff (hkeys : (projects.map (·.key)).Nodup)
    (hbefore : projects[i]? = some before) (hafter : projects[j]? = some after) :
    (inherited projects).kind? i j = some .parent ↔ after.parent = some before.key := by
  rw [(linked_inherited hkeys).kind?_eq, ite_eq_left_iff, mem_parentLinks hkeys, hbefore, hafter]
  simp

/-- What is logged for one declaration. -/
theorem bind_notice? (hkeys : (projects.map (·.key)).Nodup) (hproject : projects[j]? = some project)
    (key : ProjectKey) :
    ((Project.position? projects key).map (·, j)).bind (notice? (inherited projects))
      = if IsChildOf projects project key
        then some (ignoringLine project.key.text key.text) else none := by
  cases hposition : Project.position? projects key with
  | none =>
    have hnot : ¬ IsChildOf projects project key := by
      intro h
      obtain ⟨child, hchild, hkey, -⟩ := h
      obtain ⟨i, hi⟩ := List.getElem?_of_mem hchild
      rw [(position?_eq_some_iff hkeys).2 ⟨child, hi, hkey⟩] at hposition
      cases hposition
    rw [if_neg hnot]
    rfl
  | some i =>
    obtain ⟨child, hi, rfl⟩ := (position?_eq_some_iff hkeys).1 hposition
    rw [Option.map_some, Option.bind_some, notice?, label_inherited hproject, label_inherited hi]
    simp only [kind?_inherited_eq_parent_iff hkeys hproject hi,
      isChildOf_iff hkeys (List.mem_of_getElem? hi)]

/-- What is logged for one candidate. -/
theorem filterMap_notice? (hkeys : (projects.map (·.key)).Nodup)
    (hproject : projects[j]? = some project) :
    (project.dependencies.filterMap fun key =>
        (Project.position? projects key).map (·, j)).filterMap (notice? (inherited projects))
      = ignoringLinesOf projects project := by
  rw [List.filterMap_filterMap, ignoringLinesOf, ← List.filterMap_eq_map, List.filterMap_filter]
  apply List.filterMap_congr
  intro key _
  rw [bind_notice? hkeys hproject]
  simp

theorem snd_constraints (hkeys : (projects.map (·.key)).Nodup) :
    (constraints projects).2 = ignoringLines projects := by
  have hpass : (constraints projects).2
      = (dependencyLinks projects).filterMap (notice? (inherited projects)) :=
    snd_foldl_addDependency (linked_inherited hkeys).wellFormed (inRange_dependencyLinks hkeys) []
  calc (constraints projects).2
      = projects.zipIdx.flatMap fun entry => (entry.1.dependencies.filterMap fun key =>
          (Project.position? projects key).map (·, entry.2)).filterMap
            (notice? (inherited projects)) := by
        rw [hpass, dependencyLinks, List.filterMap_flatMap]
    _ = projects.zipIdx.flatMap fun entry => ignoringLinesOf projects entry.1 := by
        apply List.flatMap_congr
        intro entry hentry
        exact filterMap_notice? hkeys (List.mk_mem_zipIdx_iff_getElem?.1 hentry)
    _ = (projects.zipIdx.map Prod.fst).flatMap (ignoringLinesOf projects) := by
        rw [List.flatMap_map]
    _ = ignoringLines projects := by
        rw [List.zipIdx_map_fst, ignoringLines]

/-! ### The log of a build order -/

theorem orderedLines_ok (horder : order ≠ []) :
    orderedLines (.ok order) = [⟨.debug, s!"Ordered {order.length} build candidates"⟩] := by
  obtain ⟨first, rest, rfl⟩ := List.exists_cons_of_ne_nil horder
  rfl

theorem lines_of_nodup (hkeys : (projects.map (·.key)).Nodup) :
    (buildOrder projects).lines
      = (constraints projects).2 ++ orderedLines (buildOrder projects).outcome := by
  cases projects with
  | nil => rfl
  | cons first rest =>
    rw [outcome_of_nodup hkeys, buildOrder, List.isEmpty_cons, if_neg Bool.false_ne_true,
      findClash_of_nodup hkeys]
    dsimp only
    rw [Reported.lines_logAll_bind]
    congr 1
    cases hsort : (constraints (first :: rest)).1.sort with
    | error cycle => rfl
    | ok positions =>
      have hpositions := linearization_of_sort (linked_constraints hkeys).wellFormed hsort
      have hperm := perm_of_linearization hkeys hpositions
      have hlength : (positions.filterMap ((first :: rest)[·]?)).length = positions.length := by
        rw [hperm.length_eq, hpositions.perm.length_eq, List.length_range, size_constraints hkeys]
      dsimp only
      rw [orderedLines_ok (fun hnil => by simpa [hnil] using hperm.length_eq), hlength]
      rfl

/-- Every declaration of a candidate about another is kept as an edge of the graph, and of the right
kind, or it is a dependency on an own child and the log says that it is dropped. The log says it once
for each such declaration, in their order, and says nothing else before the candidates are sorted. -/
theorem constraints_of_declarations (hkeys : (projects.map (·.key)).Nodup) :
    findClash [] projects = none ∧ Depicts (constraints projects).1 projects ∧
    (constraints projects).2 = ignoringLines projects ∧
    (buildOrder projects).lines
      = ignoringLines projects ++ orderedLines (buildOrder projects).outcome ∧
    ∀ i j before after, projects[i]? = some before → projects[j]? = some after →
      before.key ∈ after.dependencies →
      (constraints projects).1.Edge i j
        ∨ ignoringLine after.key.text before.key.text ∈ (constraints projects).2 := by
  have hlines := snd_constraints hkeys
  refine ⟨findClash_of_nodup hkeys, depicts_constraints hkeys, hlines, ?_, ?_⟩
  · rw [lines_of_nodup hkeys, hlines]
  · intro i j before after hbefore hafter hdeclared
    by_cases hchild : before.parent = some after.key
    · right
      rw [hlines]
      apply mem_ignoringLines (List.mem_of_getElem? hafter) hdeclared
      exact ⟨before, List.mem_of_getElem? hbefore, rfl, hchild⟩
    · left
      exact (edge_constraints hkeys hbefore hafter).2 (Or.inr ⟨hdeclared, hchild⟩)

/-- A child that inherits from its parent and depends on it, while the parent depends on the child
twice; a tool that is its own parent and depends on itself; and two candidates that are each other's
parents, of which one depends on the other. -/
theorem constraints_of_own_children :
    let projects : List Project := [
      ⟨⟨"g", "child"⟩, "1", some ⟨"g", "parent"⟩, [⟨"g", "tool"⟩, ⟨"g", "parent"⟩]⟩,
      ⟨⟨"g", "parent"⟩, "1", none, [⟨"g", "child"⟩, ⟨"g", "tool"⟩, ⟨"g", "child"⟩]⟩,
      ⟨⟨"g", "tool"⟩, "2", some ⟨"g", "tool"⟩, [⟨"h", "gone"⟩, ⟨"g", "tool"⟩]⟩,
      ⟨⟨"g", "left"⟩, "1", some ⟨"g", "right"⟩, [⟨"g", "right"⟩]⟩,
      ⟨⟨"g", "right"⟩, "1", some ⟨"g", "left"⟩, []⟩]
    (projects.map (·.key)).Nodup ∧
    (constraints projects).1.kind? 1 0 = some .parent ∧
    (constraints projects).1.kind? 0 1 = none ∧
    (constraints projects).1.kind? 2 1 = some .dependency ∧
    (constraints projects).1.kind? 2 2 = some .parent ∧
    (constraints projects).1.kind? 3 4 = some .parent ∧
    (constraints projects).1.kind? 4 3 = some .parent ∧
    (buildOrder projects).lines = [
      ⟨.debug, "Ignoring dependency of g:parent on its child g:child; parent is built first"⟩,
      ⟨.debug, "Ignoring dependency of g:parent on its child g:child; parent is built first"⟩,
      ⟨.debug, "Ignoring dependency of g:tool on its child g:tool; parent is built first"⟩,
      ⟨.debug, "Ignoring dependency of g:left on its child g:right; parent is built first"⟩] := by
  intro projects
  have hkeys : (projects.map (·.key)).Nodup := by decide
  obtain ⟨-, hgraph, -, hlines, -⟩ := constraints_of_declarations hkeys
  refine ⟨hkeys, ?_, ?_, ?_, ?_, ?_, ?_, ?_⟩
  · exact (hgraph.parent_iff 1 0).2 ⟨_, _, rfl, rfl, rfl⟩
  · rw [hgraph.none_iff]
    constructor
    · simp [ParentAt, projects]
    · simp [DependencyAt, projects]
  · exact (hgraph.dependency_iff 2 1).2 ⟨_, _, rfl, rfl, by decide, by decide, by decide⟩
  · exact (hgraph.parent_iff 2 2).2 ⟨_, _, rfl, rfl, rfl⟩
  · exact (hgraph.parent_iff 3 4).2 ⟨_, _, rfl, rfl, rfl⟩
  · exact (hgraph.parent_iff 4 3).2 ⟨_, _, rfl, rfl, rfl⟩
  · rw [hlines]
    decide +kernel

end BuildOrder

end Rebuild
