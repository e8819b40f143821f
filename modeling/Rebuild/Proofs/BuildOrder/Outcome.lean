import Rebuild.Proofs.BuildOrder.Clash
import Rebuild.Proofs.BuildOrder.Constraints
import Rebuild.Proofs.Graph.Linearization

/-!
# How a build order turns out

Two candidates with one key are reported whatever else is wrong. Otherwise the constraints decide:
there is an order unless a candidate is needed, directly or through others, by itself. An order that
is found has every candidate in it once and keeps all constraints.
-/

namespace Rebuild

namespace Reported

variable {α : Type}

/-- Lines that are logged first leave the outcome as it is. -/
theorem outcome_logAll_bind (lines : List LogLine) (next : Unit → Reported α) :
    (logAll lines >>= next).outcome = (next ()).outcome := rfl

end Reported

namespace BuildOrder

open Rebuild.Graph

variable {projects order : List Project} {i j : Nat}

/-- The one candidate must come before the other. -/
def Constraint (projects : List Project) (before after : Project) : Prop :=
  before ∈ projects ∧ after ∈ projects ∧ Needed before after

/-! ### The two ways through -/

theorem outcome_of_clash {first second : Project} (hclash : Clash projects first second) :
    (buildOrder projects).outcome
      = .error (.duplicateProject second.key.text first.name second.name) := by
  have hne : projects.isEmpty = false := by
    obtain ⟨front, back, rfl, _⟩ := hclash
    simp
  rw [buildOrder, hne, findClash_of_clash hclash]
  rfl

theorem outcome_of_nodup (hkeys : (projects.map (·.key)).Nodup) :
    (buildOrder projects).outcome = match (constraints projects).1.sort with
      | .ok order => .ok (order.filterMap (projects[·]?))
      | .error cycle => .error (describe (constraints projects).1 cycle) := by
  cases projects with
  | nil => rfl
  | cons first rest =>
    rw [buildOrder, List.isEmpty_cons, if_neg Bool.false_ne_true, findClash_of_nodup hkeys]
    dsimp only
    rw [Reported.outcome_logAll_bind]
    cases (constraints (first :: rest)).1.sort with
    | ok order => rfl
    | error cycle => rfl

theorem nodup_keys_of_ok (hok : (buildOrder projects).outcome = .ok order) :
    (projects.map (·.key)).Nodup := by
  by_contra hkeys
  obtain ⟨first, second, hclash⟩ := exists_clash hkeys
  rw [outcome_of_clash hclash] at hok
  cases hok

theorem outcome_eq_ok_iff (hkeys : (projects.map (·.key)).Nodup) :
    (buildOrder projects).outcome = .ok order
      ↔ ∃ positions, (constraints projects).1.sort = .ok positions
        ∧ positions.filterMap (projects[·]?) = order := by
  rw [outcome_of_nodup hkeys]
  cases (constraints projects).1.sort with
  | ok positions => simp
  | error cycle => simp

/-- A cycle is reported as one of dependencies or as one of parents. -/
theorem describe_cases (g : Graph) (cycle : Cycle) :
    (∃ dependency project way, describe g cycle = .dependencyCycle dependency project way)
      ∨ ∃ parent project way, describe g cycle = .parentCycle parent project way := by
  rw [describe]
  split
  · exact Or.inr ⟨_, _, _, rfl⟩
  · exact Or.inl ⟨_, _, _, rfl⟩

/-! ### From positions to candidates -/

theorem exists_of_map_eq {α β : Type} {f : α → Option β} {xs : List α} {ys : List β} {x : α}
    (hmap : xs.map f = ys.map some) (hx : x ∈ xs) : ∃ y ∈ ys, f x = some y := by
  have hmem : f x ∈ ys.map some := hmap ▸ List.mem_map_of_mem hx
  obtain ⟨y, hy, heq⟩ := List.mem_map.1 hmem
  exact ⟨y, hy, heq.symm⟩

theorem filterMap_range_getElem? (projects : List Project) :
    (List.range projects.length).filterMap (projects[·]?) = projects := by
  have hmap : (List.range projects.length).map (projects[·]?) = projects.map some := by
    apply List.ext_getElem?
    intro i
    rw [List.getElem?_map, List.getElem?_map]
    by_cases hi : i < projects.length
    · simp [hi]
    · simp [hi]
  calc (List.range projects.length).filterMap (projects[·]?)
      = ((List.range projects.length).map (projects[·]?)).filterMap id := by
        rw [List.filterMap_map, Function.id_comp]
    _ = (projects.map some).filterMap id := by rw [hmap]
    _ = projects := by rw [List.filterMap_map, Function.id_comp, List.filterMap_some]

theorem perm_of_linearization {positions : List Nat} (hkeys : (projects.map (·.key)).Nodup)
    (hpositions : (constraints projects).1.Linearization positions) :
    (positions.filterMap (projects[·]?)).Perm projects := by
  have hperm := hpositions.perm
  rw [size_constraints hkeys] at hperm
  have himage := hperm.filterMap (projects[·]?)
  rwa [filterMap_range_getElem?] at himage

theorem standsBefore_of_linearization {positions : List Nat}
    (hkeys : (projects.map (·.key)).Nodup)
    (hpositions : (constraints projects).1.Linearization positions) {before after : Project}
    (h : Constraint projects before after) :
    StandsBefore (positions.filterMap (projects[·]?)) before after := by
  obtain ⟨hbefore, hafter, hneeded⟩ := h
  obtain ⟨i, hi⟩ := List.mem_iff_getElem?.1 hbefore
  obtain ⟨j, hj⟩ := List.mem_iff_getElem?.1 hafter
  have hedge := (edge_constraints hkeys hi hj).2 hneeded
  exact (hpositions.forward i j hedge).filterMap _ hi hj

theorem transGen_constraint (hkeys : (projects.map (·.key)).Nodup)
    (hpath : Relation.TransGen (constraints projects).1.Edge i j) {before after : Project}
    (hbefore : projects[i]? = some before) (hafter : projects[j]? = some after) :
    Relation.TransGen (Constraint projects) before after := by
  induction hpath generalizing after with
  | single hedge =>
    exact .single ⟨List.mem_of_getElem? hbefore, List.mem_of_getElem? hafter,
      (edge_constraints hkeys hbefore hafter).1 hedge⟩
  | tail _ hedge ih =>
    obtain ⟨middle, last, hmiddle, hlast, hneeded⟩ := (edge_constraints_iff hkeys).1 hedge
    obtain rfl := Option.some.inj (hafter.symm.trans hlast)
    exact (ih hmiddle).tail ⟨List.mem_of_getElem? hmiddle, List.mem_of_getElem? hafter, hneeded⟩

/-- The graph has a cycle exactly if the constraints between the candidates have one. -/
theorem acyclic_constraints_iff (hkeys : (projects.map (·.key)).Nodup) :
    (constraints projects).1.Acyclic
      ↔ ¬ ∃ project, Relation.TransGen (Constraint projects) project project := by
  constructor
  · rintro hacyclic ⟨project, hcycle⟩
    apply hacyclic (projects.idxOf project)
    refine hcycle.lift (projects.idxOf ·) ?_
    rintro before after ⟨hbefore, hafter, hneeded⟩
    exact (edge_constraints hkeys (List.getElem?_idxOf hbefore) (List.getElem?_idxOf hafter)).2
      hneeded
  · intro hnone v hcycle
    obtain ⟨next, hedge, _⟩ := Relation.TransGen.head'_iff.1 hcycle
    obtain ⟨project, _, hproject, _⟩ := (edge_constraints_iff hkeys).1 hedge
    exact hnone ⟨project, transGen_constraint hkeys hcycle hproject hproject⟩

/-! ### Main results -/

/-- An order that is found has every candidate in it, each once and as it was given. Every parent
stands before its child and every dependency before the one that declares it, except for a
dependency on one's own child, which stands after. -/
theorem order_of_buildOrder_ok (hok : (buildOrder projects).outcome = .ok order) :
    order.Perm projects ∧ (order.map (·.key)).Nodup ∧
    (∀ project ∈ projects, ∀ parent ∈ projects, project.parent = some parent.key →
      StandsBefore order parent project) ∧
    ∀ project ∈ projects, ∀ dependency ∈ projects, dependency.key ∈ project.dependencies →
      if dependency.parent = some project.key then StandsBefore order project dependency
      else StandsBefore order dependency project := by
  have hkeys := nodup_keys_of_ok hok
  obtain ⟨positions, hsort, rfl⟩ := (outcome_eq_ok_iff hkeys).1 hok
  have hpositions := linearization_of_sort (linked_constraints hkeys).wellFormed hsort
  have hperm := perm_of_linearization hkeys hpositions
  refine ⟨hperm, (hperm.map _).nodup_iff.2 hkeys, ?_, ?_⟩
  · intro project hproject parent hparent hdeclared
    exact standsBefore_of_linearization hkeys hpositions ⟨hparent, hproject, Or.inl hdeclared⟩
  · intro project hproject dependency hdependency hdeclared
    split
    case isTrue hchild =>
      exact standsBefore_of_linearization hkeys hpositions ⟨hproject, hdependency, Or.inl hchild⟩
    case isFalse hchild =>
      exact standsBefore_of_linearization hkeys hpositions
        ⟨hdependency, hproject, Or.inr ⟨hdeclared, hchild⟩⟩

/-- A parent that depends on its own child, and a dependency that is no candidate. -/
theorem order_of_parent_and_child :
    let child : Project := ⟨⟨"g", "child"⟩, "1", some ⟨"g", "parent"⟩, []⟩
    let parent : Project := ⟨⟨"g", "parent"⟩, "1", none, [⟨"g", "child"⟩, ⟨"g", "tool"⟩]⟩
    let tool : Project := ⟨⟨"g", "tool"⟩, "2", none, [⟨"h", "gone"⟩]⟩
    (buildOrder [child, parent, tool]).outcome = .ok [tool, parent, child] ∧
    [tool, parent, child].Perm [child, parent, tool] ∧
    child ∈ [child, parent, tool] ∧ parent ∈ [child, parent, tool] ∧
    child.parent = some parent.key ∧ StandsBefore [tool, parent, child] parent child := by
  intro child parent tool
  have hok : (buildOrder [child, parent, tool]).outcome = .ok [tool, parent, child] := by
    subst child parent tool
    rfl
  obtain ⟨hperm, _, hparents, _⟩ := order_of_buildOrder_ok hok
  have hchild : child ∈ [child, parent, tool] := by simp
  have hparent : parent ∈ [child, parent, tool] := by simp
  exact ⟨hok, hperm, hchild, hparent, rfl, hparents child hchild parent hparent rfl⟩

/-- Two candidates with one key are reported, the first such pair, and nothing else is. With
different keys there is an order exactly if the constraints have no cycle, and else a cycle of
dependencies or of parents is reported. -/
theorem outcome_of_buildOrder (projects : List Project) :
    (¬ (projects.map (·.key)).Nodup → ∃ first second, Clash projects first second) ∧
    (∀ first second, Clash projects first second → (buildOrder projects).outcome
      = .error (.duplicateProject second.key.text first.name second.name)) ∧
    ((projects.map (·.key)).Nodup →
      (((∃ dependency project way, (buildOrder projects).outcome
            = .error (.dependencyCycle dependency project way)) ∨
          ∃ parent project way, (buildOrder projects).outcome
            = .error (.parentCycle parent project way))
        ↔ ∃ project, Relation.TransGen (Constraint projects) project project) ∧
      ((∃ order, (buildOrder projects).outcome = .ok order)
        ↔ ¬ ∃ project, Relation.TransGen (Constraint projects) project project)) := by
  refine ⟨exists_clash, fun first second hclash => outcome_of_clash hclash, ?_⟩
  intro hkeys
  have hsort := exists_sort_iff_acyclic (linked_constraints hkeys).wellFormed
  rw [acyclic_constraints_iff hkeys] at hsort
  rw [outcome_of_nodup hkeys]
  cases hanswer : (constraints projects).1.sort with
  | ok positions =>
    have hnone := hsort.1 ⟨positions, hanswer⟩
    simp [hnone]
  | error cycle =>
    have hcycle : ∃ project, Relation.TransGen (Constraint projects) project project := by
      by_contra hnone
      obtain ⟨positions, hok⟩ := hsort.2 hnone
      rw [hanswer] at hok
      cases hok
    rcases describe_cases (constraints projects).1 cycle with
      ⟨dependency, project, way, hcase⟩ | ⟨parent, project, way, hcase⟩
    · simp [hcase, hcycle]
    · simp [hcase, hcycle]

/-- Two projects that need each other are a cycle, but once there is a second project with the key
of the first, only that is reported. -/
theorem clash_hides_cycle :
    let first : Project := ⟨⟨"g", "a"⟩, "1", none, [⟨"g", "b"⟩]⟩
    let other : Project := ⟨⟨"g", "b"⟩, "1", none, [⟨"g", "a"⟩]⟩
    let second : Project := ⟨⟨"g", "a"⟩, "2", none, []⟩
    ((∃ dependency project way, (buildOrder [first, other]).outcome
        = .error (.dependencyCycle dependency project way)) ∨
      ∃ parent project way, (buildOrder [first, other]).outcome
        = .error (.parentCycle parent project way)) ∧
    (buildOrder [first, other, second]).outcome
      = .error (.duplicateProject second.key.text first.name second.name) := by
  intro first other second
  have hkeys : ([first, other].map (·.key)).Nodup := by decide
  have hforth : Constraint [first, other] first other :=
    ⟨by simp, by simp, Or.inr ⟨by decide, by decide⟩⟩
  have hback : Constraint [first, other] other first :=
    ⟨by simp, by simp, Or.inr ⟨by decide, by decide⟩⟩
  have hclash : Clash [first, other, second] first second :=
    ⟨[first, other], [], rfl, hkeys, by simp, rfl⟩
  constructor
  · exact (((outcome_of_buildOrder [first, other]).2.2 hkeys).1).2
      ⟨first, .tail (.single hforth) hback⟩
  · exact (outcome_of_buildOrder [first, other, second]).2.1 first second hclash

end BuildOrder

end Rebuild
