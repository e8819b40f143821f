import Rebuild.Proofs.BuildOrder.Outcome
import Rebuild.Proofs.Graph.Tail

/-!
# Candidates that are in order

Candidates are in order if every one of them stands behind those that it needs. What ordering gives
is in order, and what is in order is left as it is: all edges of its graph lead to higher positions,
and of all orders of the positions none comes before the one that counts up. So ordering again
changes nothing.
-/

namespace Rebuild

namespace Graph

variable {g : Graph}

/-- Numbers in sequence are the first of their orders. -/
theorem not_lex_range' {xs : List Nat} {start n : Nat} (hperm : xs.Perm (List.range' start n)) :
    ¬ List.Lex (· < ·) xs (List.range' start n) := by
  induction n generalizing start xs with
  | zero =>
    rw [List.range'_zero]
    rintro ⟨⟩
  | succ n ih =>
    intro hlex
    cases xs with
    | nil => cases hperm.length_eq
    | cons x xs =>
      have hx : x ∈ List.range' start (n + 1) := hperm.mem_iff.1 List.mem_cons_self
      rw [List.range'_succ] at hperm hlex
      rcases List.cons_lex_cons_iff.1 hlex with hlt | ⟨rfl, hrest⟩
      · have hle := (List.mem_range'_1.1 hx).1
        omega
      · exact ih hperm.cons_inv hrest

/-- If all edges lead to higher numbers, the vertices are placed as they are numbered. -/
theorem sort_of_forward (hg : g.WellFormed) (hforward : ∀ u v, g.Edge u v → u < v) :
    g.sort = .ok (List.range g.size) := by
  have hrange : g.Linearization (List.range g.size) := by
    refine ⟨.refl _, ?_⟩
    intro u v hedge
    exact ⟨u, v, hforward u v hedge, List.getElem?_range (hg.lt_of_edge_left hedge),
      List.getElem?_range (hg.lt_of_edge_right hedge)⟩
  obtain ⟨order, hsort⟩ := (exists_sort_iff_acyclic hg).2 hrange.acyclic
  rcases eq_or_lex_of_sort hg hsort hrange with rfl | hlex
  · exact hsort
  · have hperm := (linearization_of_sort hg hsort).perm
    rw [List.range_eq_range'] at hperm hlex
    exact absurd hlex (not_lex_range' hperm)

end Graph

namespace BuildOrder

variable {projects order : List Project} {before after : Project}

/-- Every parent stands before its child, and every dependency before the one that declares it if it
is not that one's child. -/
structure InOrder (projects : List Project) : Prop where
  parent_first : ∀ child ∈ projects, ∀ parent ∈ projects, child.parent = some parent.key →
    StandsBefore projects parent child
  dependency_first : ∀ project ∈ projects, ∀ dependency ∈ projects,
    dependency.key ∈ project.dependencies → dependency.parent ≠ some project.key →
    StandsBefore projects dependency project

theorem inOrder_iff :
    InOrder projects ↔
      ∀ before after, Constraint projects before after → StandsBefore projects before after := by
  constructor
  · rintro horder before after ⟨hbefore, hafter, hparent | ⟨hdeclared, hchild⟩⟩
    · exact horder.parent_first after hafter before hbefore hparent
    · exact horder.dependency_first after hafter before hbefore hdeclared hchild
  · intro hkept
    refine ⟨?_, ?_⟩
    · intro child hchild parent hparent hdeclared
      exact hkept parent child ⟨hparent, hchild, Or.inl hdeclared⟩
    · intro project hproject dependency hdependency hdeclared hchild
      exact hkept dependency project ⟨hdependency, hproject, Or.inr ⟨hdeclared, hchild⟩⟩

theorem InOrder.lt_of_edge (horder : InOrder projects) (hkeys : (projects.map (·.key)).Nodup)
    {i j : Nat} (hedge : (constraints projects).1.Edge i j) : i < j := by
  obtain ⟨before, after, hbefore, hafter, hneeded⟩ := (edge_constraints_iff hkeys).1 hedge
  obtain ⟨i', j', hlt, hi', hj'⟩ := inOrder_iff.1 horder before after
    ⟨List.mem_of_getElem? hbefore, List.mem_of_getElem? hafter, hneeded⟩
  -- with different keys a candidate has one position only
  have hposition : ∀ {project : Project} {k l : Nat}, projects[k]? = some project →
      projects[l]? = some project → k = l := by
    intro project k l hk hl
    exact (List.getElem?_inj (List.getElem?_eq_some_iff.1 hk).1 hkeys.of_map).1 (hk.trans hl.symm)
  rwa [hposition hbefore hi', hposition hafter hj']

theorem InOrder.outcome_eq (horder : InOrder projects) (hkeys : (projects.map (·.key)).Nodup) :
    (buildOrder projects).outcome = .ok projects := by
  rw [outcome_eq_ok_iff hkeys]
  refine ⟨List.range projects.length, ?_, filterMap_range_getElem? projects⟩
  rw [← size_constraints hkeys]
  apply Graph.sort_of_forward (linked_constraints hkeys).wellFormed
  intro i j hedge
  exact horder.lt_of_edge hkeys hedge

/-- An order that is found has all candidates in it, and they are in order. -/
theorem inOrder_of_ok (hok : (buildOrder projects).outcome = .ok order) :
    order.Perm projects ∧ InOrder order := by
  have hkeys := nodup_keys_of_ok hok
  obtain ⟨positions, hsort, rfl⟩ := (outcome_eq_ok_iff hkeys).1 hok
  have hpositions := Graph.linearization_of_sort (linked_constraints hkeys).wellFormed hsort
  have hperm := perm_of_linearization hkeys hpositions
  refine ⟨hperm, inOrder_iff.2 ?_⟩
  rintro before after ⟨hbefore, hafter, hneeded⟩
  exact standsBefore_of_linearization hkeys hpositions
    ⟨hperm.mem_iff.1 hbefore, hperm.mem_iff.1 hafter, hneeded⟩

/-- Candidates with different keys that are in order stay as they are. So what was ordered once is
not changed by ordering it again. -/
theorem buildOrder_keeps_order :
    (∀ projects : List Project, (projects.map (·.key)).Nodup → InOrder projects →
      (buildOrder projects).outcome = .ok projects) ∧
    ∀ projects order : List Project, (buildOrder projects).outcome = .ok order →
      (buildOrder order).outcome = .ok order := by
  refine ⟨fun _ hkeys horder => horder.outcome_eq hkeys, ?_⟩
  intro projects order hok
  obtain ⟨hperm, horder⟩ := inOrder_of_ok hok
  exact horder.outcome_eq ((hperm.map (·.key)).nodup_iff.2 (nodup_keys_of_ok hok))

/-- A parent that depends on its own child stands before it, and that is in order. -/
theorem order_kept_of_parent_and_child :
    let child : Project := ⟨⟨"g", "child"⟩, "1", some ⟨"g", "parent"⟩, []⟩
    let parent : Project := ⟨⟨"g", "parent"⟩, "1", none, [⟨"g", "child"⟩, ⟨"g", "tool"⟩]⟩
    let tool : Project := ⟨⟨"g", "tool"⟩, "2", none, [⟨"h", "gone"⟩]⟩
    let app : Project := ⟨⟨"g", "app"⟩, "1", none, [⟨"g", "child"⟩]⟩
    ([tool, parent, child].map (·.key)).Nodup ∧ InOrder [tool, parent, child] ∧
    (buildOrder [tool, parent, child]).outcome = .ok [tool, parent, child] ∧
    (buildOrder [app, child, parent, tool]).outcome = .ok [tool, parent, child, app] ∧
    (buildOrder [tool, parent, child, app]).outcome = .ok [tool, parent, child, app] := by
  intro child parent tool app
  have hkeys : ([tool, parent, child].map (·.key)).Nodup := by decide
  have horder : InOrder [tool, parent, child] := by
    refine ⟨?_, ?_⟩
    · simp [child, parent, tool, standsBefore_iff_sublist]
    · simp [child, parent, tool, standsBefore_iff_sublist]
  have hok : (buildOrder [app, child, parent, tool]).outcome = .ok [tool, parent, child, app] := by
    subst child parent tool app
    rfl
  exact ⟨hkeys, horder, buildOrder_keeps_order.1 _ hkeys horder, hok,
    buildOrder_keeps_order.2 _ _ hok⟩

end BuildOrder

end Rebuild
