import Mathlib.Data.Set.List
import Rebuild.BuildSession
import Rebuild.Proofs.BuildOrder.Outcome
import Rebuild.Proofs.Graph.Tail

/-!
# Planning again in the middle of a session

A session builds the projects of its plan from the front, records their keys as it goes, and may
plan again at any time. What is left then are the candidates that the plan has not come to yet, in
the order of the candidates. So their positions embed in the old ones, every constraint between two
of them is one that they had before, and none of them is needed by what is built already. By
`sort_of_tail` the new plan is the part of the old one that is still to be done.
-/

namespace Rebuild

open Rebuild.Graph

namespace BuildOrder

variable {projects rest built todo : List Project}

/-- Candidates that are left over from others keep the constraints between them. -/
theorem edge_constraints_of_embedding {f : Nat ↪o Nat}
    (hkeys : (projects.map (·.key)).Nodup) (hrest : (rest.map (·.key)).Nodup)
    (hf : ∀ i, rest[i]? = projects[f i]?) (i j : Nat) :
    (constraints rest).1.Edge i j ↔ (constraints projects).1.Edge (f i) (f j) := by
  rw [edge_constraints_iff hkeys, edge_constraints_iff hrest, hf i, hf j]

theorem map_getElem?_of_linearization {positions : List Nat}
    (hkeys : (projects.map (·.key)).Nodup)
    (hpositions : (constraints projects).1.Linearization positions) :
    positions.map (projects[·]?) = (positions.filterMap (projects[·]?)).map some := by
  have hsome : ∀ v ∈ positions, ∃ project, projects[v]? = some project := by
    intro v hv
    have hlt := List.mem_range.1 (hpositions.perm.mem_iff.1 hv)
    rw [size_constraints hkeys] at hlt
    exact ⟨_, List.getElem?_eq_getElem hlt⟩
  clear hpositions
  induction positions with
  | nil => rfl
  | cons v vs ih =>
    obtain ⟨hv, hvs⟩ := List.forall_mem_cons.1 hsome
    obtain ⟨project, hproject⟩ := hv
    rw [List.map_cons, ih hvs, List.filterMap_cons_some hproject, List.map_cons, hproject]

theorem mem_rest_iff (hperm : (built ++ todo).Perm projects)
    (hkeys : (projects.map (·.key)).Nodup)
    (hrest : rest = projects.filter fun project => project.key ∉ built.map (·.key))
    (project : Project) : project ∈ rest ↔ project ∈ todo := by
  have hdisjoint := (hperm.map (·.key)).nodup_iff.2 hkeys
  rw [List.map_append, List.nodup_append] at hdisjoint
  rw [hrest, List.mem_filter, ← hperm.mem_iff, List.mem_append, decide_eq_true_eq]
  constructor
  · rintro ⟨hbuilt | htodo, hkey⟩
    · exact absurd (List.mem_map_of_mem hbuilt) hkey
    · exact htodo
  · intro htodo
    refine ⟨Or.inr htodo, ?_⟩
    intro hkey
    exact hdisjoint.2.2 _ hkey _ (List.mem_map_of_mem htodo) rfl

theorem mem_later_iff {f : Nat ↪o Nat} {placed later : List Nat} {v : Nat}
    (hnodup : (built ++ todo).Nodup) (hperm : (built ++ todo).Perm projects)
    (hmem : ∀ project, project ∈ rest ↔ project ∈ todo) (hf : ∀ i, rest[i]? = projects[f i]?)
    (hpositions : (placed ++ later).Perm (List.range projects.length))
    (hplaced : placed.map (projects[·]?) = built.map some)
    (hlater : later.map (projects[·]?) = todo.map some) :
    v ∈ later ↔ ∃ i < rest.length, f i = v := by
  constructor
  · intro hv
    obtain ⟨project, htodo, hproject⟩ := exists_of_map_eq hlater hv
    obtain ⟨i, hi⟩ := List.mem_iff_getElem?.1 ((hmem project).2 htodo)
    have hlt := (List.getElem?_eq_some_iff.1 hproject).1
    refine ⟨i, (List.getElem?_eq_some_iff.1 hi).1, ?_⟩
    rw [hf, ← hproject] at hi
    exact ((List.getElem?_inj hlt (hperm.nodup_iff.1 hnodup)).1 hi.symm).symm
  · rintro ⟨i, hi, rfl⟩
    obtain ⟨project, hproject⟩ : ∃ project, rest[i]? = some project :=
      ⟨_, List.getElem?_eq_getElem hi⟩
    have htodo := (hmem project).1 (List.mem_of_getElem? hproject)
    rw [hf] at hproject
    have hv := hpositions.mem_iff.2 (List.mem_range.2 (List.getElem?_eq_some_iff.1 hproject).1)
    refine (List.mem_append.1 hv).resolve_left ?_
    intro hfront
    obtain ⟨other, hbuilt, hother⟩ := exists_of_map_eq hplaced hfront
    obtain rfl := Option.some.inj (hproject.symm.trans hother)
    exact (List.nodup_append.1 hnodup).2.2 _ hbuilt _ htodo rfl

/-- The positions of what is left over in terms of an order: those that come last in it. -/
theorem exists_embedding_of_rest (hok : (buildOrder projects).outcome = .ok (built ++ todo))
    (hrest : rest = projects.filter fun project => project.key ∉ built.map (·.key)) :
    ∃ (f : Nat ↪o Nat) (placed left : List Nat), (∀ i, rest[i]? = projects[f i]?) ∧
      (constraints projects).1.sort = .ok (placed ++ left.map f) ∧
      left.Perm (List.range rest.length) ∧ left.map (rest[·]?) = todo.map some := by
  have hkeys := nodup_keys_of_ok hok
  obtain ⟨positions, hsort, horder⟩ := (outcome_eq_ok_iff hkeys).1 hok
  have hpositions := linearization_of_sort (linked_constraints hkeys).wellFormed hsort
  have hperm : (built ++ todo).Perm projects := horder ▸ perm_of_linearization hkeys hpositions
  have hnodup : (built ++ todo).Nodup := hperm.nodup_iff.2 hkeys.of_map
  have hmem := mem_rest_iff hperm hkeys hrest
  obtain ⟨f, hf⟩ := List.sublist_iff_exists_orderEmbedding_getElem?_eq.1
    (show rest.Sublist projects from hrest ▸ List.filter_sublist)
  have hmap := map_getElem?_of_linearization hkeys hpositions
  rw [horder, List.map_append, List.map_eq_append_iff] at hmap
  obtain ⟨placed, later, rfl, hplaced, hlater⟩ := hmap
  have hrange := hpositions.perm
  rw [size_constraints hkeys] at hrange
  have hmemLater : ∀ v, v ∈ later ↔ ∃ i < rest.length, f i = v := fun v =>
    mem_later_iff hnodup hperm hmem hf hrange hplaced hlater
  obtain ⟨left, rfl⟩ : later ∈ Set.range (List.map f) := by
    rw [Set.range_list_map]
    intro v hv
    obtain ⟨i, _, hi⟩ := (hmemLater v).1 hv
    exact ⟨i, hi⟩
  refine ⟨f, placed, left, hf, hsort, ?_, ?_⟩
  · have hleft := (List.nodup_append.1 hpositions.nodup).2.1.of_map
    rw [List.perm_ext_iff_of_nodup hleft List.nodup_range]
    intro i
    rw [List.mem_range, ← List.mem_map_of_injective f.injective, hmemLater]
    constructor
    · rintro ⟨j, hj, heq⟩
      rwa [← f.injective heq]
    · intro hi
      exact ⟨i, hi, rfl⟩
  · rw [← hlater, List.map_map]
    exact List.map_congr_left fun i _ => hf i

/-- The candidates that an order comes to last stand in the same order if they are ordered on their
own. -/
theorem outcome_of_rest (hok : (buildOrder projects).outcome = .ok (built ++ todo))
    (hrest : rest = projects.filter fun project => project.key ∉ built.map (·.key)) :
    (buildOrder rest).outcome = .ok todo := by
  have hkeys := nodup_keys_of_ok hok
  have hrestKeys : (rest.map (·.key)).Nodup := by
    rw [hrest]
    exact (List.filter_sublist.map _).nodup hkeys
  obtain ⟨f, placed, left, hf, hsort, hleft, hmap⟩ := exists_embedding_of_rest hok hrest
  rw [outcome_eq_ok_iff hrestKeys]
  refine ⟨left, ?_, ?_⟩
  · apply sort_of_tail (linked_constraints hkeys).wellFormed (linked_constraints hrestKeys).wellFormed
      (edge_constraints_of_embedding hkeys hrestKeys hf) _ hsort
    rwa [size_constraints hrestKeys]
  · calc left.filterMap (rest[·]?)
        = (left.map (rest[·]?)).filterMap id := by rw [List.filterMap_map, Function.id_comp]
      _ = (todo.map some).filterMap id := by rw [hmap]
      _ = todo := by rw [List.filterMap_map, Function.id_comp, List.filterMap_some]

end BuildOrder

namespace BuildSession

theorem outcome_plan (session : BuildSession) :
    session.plan.outcome = (buildOrder session.remaining).outcome := by
  rw [plan]
  cases session.remaining with
  | nil => rfl
  | cons first others => rfl

theorem remaining_record (session : BuildSession) {built started keys : List ProjectKey}
    (hsplit : ∀ key, key ∈ built ∨ key ∈ started ↔ key ∈ keys) :
    remaining { session with
        completed := session.completed ++ built, pending := session.pending ++ started }
      = session.remaining.filter fun project => project.key ∉ keys := by
  rw [remaining, remaining, List.filter_filter]
  apply List.filter_congr
  intro project _
  rw [Bool.eq_iff_iff]
  simp only [← hsplit, Bool.and_eq_true, Bool.not_eq_true', List.contains_eq_mem,
    decide_eq_false_iff_not, decide_eq_true_eq, List.mem_append]
  tauto

/-- A session that records the first projects of its plan, be it as completed or as pending, plans
the others next, in the same order. -/
theorem plan_after_recording {session : BuildSession} {order : List Project}
    (hok : session.plan.outcome = .ok order) (k : Nat) {built started : List ProjectKey}
    (hsplit : ∀ key, key ∈ built ∨ key ∈ started ↔ key ∈ (order.take k).map (·.key)) :
    (plan { session with
        completed := session.completed ++ built, pending := session.pending ++ started }).outcome
      = .ok (order.drop k) := by
  rw [outcome_plan] at hok ⊢
  rw [← List.take_append_drop k order] at hok
  exact BuildOrder.outcome_of_rest hok (remaining_record session hsplit)

/-- One of the first two projects is built and the other one is being built. -/
theorem plan_after_recording_two :
    let app : Project := ⟨⟨"g", "app"⟩, "1", none, [⟨"g", "lib"⟩]⟩
    let lib : Project := ⟨⟨"g", "lib"⟩, "1", some ⟨"g", "parent"⟩, []⟩
    let parent : Project := ⟨⟨"g", "parent"⟩, "1", none, [⟨"g", "lib"⟩]⟩
    let tool : Project := ⟨⟨"g", "tool"⟩, "1", none, []⟩
    (plan ⟨[app, lib, parent, tool], [], []⟩).outcome = .ok [parent, lib, app, tool] ∧
    (∀ key, key ∈ [parent.key] ∨ key ∈ [lib.key]
      ↔ key ∈ ([parent, lib, app, tool].take 2).map (·.key)) ∧
    (plan ⟨[app, lib, parent, tool], [parent.key], [lib.key]⟩).outcome = .ok [app, tool] := by
  intro app lib parent tool
  have hok : (plan ⟨[app, lib, parent, tool], [], []⟩).outcome
      = .ok [parent, lib, app, tool] := by
    subst app lib parent tool
    rfl
  have hsplit : ∀ key, key ∈ [parent.key] ∨ key ∈ [lib.key]
      ↔ key ∈ ([parent, lib, app, tool].take 2).map (·.key) := by
    simp
  exact ⟨hok, hsplit, plan_after_recording hok 2 hsplit⟩

end BuildSession

end Rebuild
