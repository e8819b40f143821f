import Rebuild.Proofs.BuildOrder.InOrder
import Rebuild.Proofs.BuildSession

/-!
# Leaving more out of a plan

A session may record any keys, not only those that its plan begins with. What is left then has the
constraints that it had before: whether a dependency counts is decided by the two candidates that it
is between, so the candidates that went make no difference. No chain of constraints closes up now if
none did before, and there is a plan for the rest. It need not have the sequence of the old plan,
since a candidate that waited may be free now.
-/

namespace Rebuild

namespace BuildOrder

variable {projects rest order : List Project} {before after : Project}

theorem constraint_iff_of_subset (hsub : rest ⊆ projects) :
    Constraint rest before after
      ↔ before ∈ rest ∧ after ∈ rest ∧ Constraint projects before after := by
  constructor
  · rintro ⟨hbefore, hafter, hneeded⟩
    exact ⟨hbefore, hafter, hsub hbefore, hsub hafter, hneeded⟩
  · rintro ⟨hbefore, hafter, _, _, hneeded⟩
    exact ⟨hbefore, hafter, hneeded⟩

theorem exists_ok_iff (hkeys : (projects.map (·.key)).Nodup) :
    (∃ order, (buildOrder projects).outcome = .ok order)
      ↔ ¬ ∃ project, Relation.TransGen (Constraint projects) project project := by
  rw [← acyclic_constraints_iff hkeys,
    ← Graph.exists_sort_iff_acyclic (linked_constraints hkeys).wellFormed]
  constructor
  · rintro ⟨order, hok⟩
    obtain ⟨positions, hsort, _⟩ := (outcome_eq_ok_iff hkeys).1 hok
    exact ⟨positions, hsort⟩
  · rintro ⟨positions, hsort⟩
    exact ⟨_, (outcome_eq_ok_iff hkeys).2 ⟨positions, hsort, rfl⟩⟩

/-- Candidates that can be ordered can still be ordered when some of them are gone. -/
theorem exists_ok_of_sublist (hrest : rest.Sublist projects)
    (hok : (buildOrder projects).outcome = .ok order) :
    ∃ later, (buildOrder rest).outcome = .ok later := by
  have hkeys := nodup_keys_of_ok hok
  rw [exists_ok_iff ((hrest.map _).nodup hkeys)]
  rintro ⟨project, hcycle⟩
  apply (exists_ok_iff hkeys).1 ⟨order, hok⟩
  refine ⟨project, hcycle.lift id ?_⟩
  intro before after h
  exact ((constraint_iff_of_subset hrest.subset).1 h).2.2

end BuildOrder

namespace BuildSession

/-- Whatever keys a session records, it has a plan if it had one before. The plan is made up of the
projects planned before whose keys were not recorded now, and they are in order. -/
theorem plan_of_fewer {session : BuildSession} {order : List Project}
    (hok : session.plan.outcome = .ok order) (built started : List ProjectKey) :
    ∃ later, (plan { session with
        completed := session.completed ++ built, pending := session.pending ++ started }).outcome
        = .ok later ∧
      later.Perm (order.filter fun project => project.key ∉ built ++ started) ∧
      BuildOrder.InOrder later := by
  have hsplit : ∀ key, key ∈ built ∨ key ∈ started ↔ key ∈ built ++ started :=
    fun _ => List.mem_append.symm
  rw [outcome_plan] at hok ⊢
  rw [remaining_record session hsplit]
  obtain ⟨later, hlater⟩ := BuildOrder.exists_ok_of_sublist List.filter_sublist hok
  obtain ⟨hperm, horder⟩ := BuildOrder.inOrder_of_ok hlater
  exact ⟨later, hlater, hperm.trans ((BuildOrder.inOrder_of_ok hok).1.symm.filter _), horder⟩

/-- Without the tool the first candidate waits for nothing, so it moves to the front. The parent
still stands before its child, though it depends on it. -/
theorem plan_without_tool :
    let app : Project := ⟨⟨"g", "app"⟩, "1", none, [⟨"g", "tool"⟩]⟩
    let lib : Project := ⟨⟨"g", "lib"⟩, "1", some ⟨"g", "parent"⟩, []⟩
    let parent : Project := ⟨⟨"g", "parent"⟩, "1", none, [⟨"g", "lib"⟩]⟩
    let tool : Project := ⟨⟨"g", "tool"⟩, "1", none, []⟩
    (plan ⟨[app, lib, parent, tool], [], []⟩).outcome = .ok [parent, lib, tool, app] ∧
    (plan ⟨[app, lib, parent, tool], [⟨"h", "gone"⟩], [tool.key]⟩).outcome
      = .ok [app, parent, lib] ∧
    [app, parent, lib].Perm ([parent, lib, tool, app].filter fun project =>
      project.key ∉ [⟨"h", "gone"⟩] ++ [tool.key]) ∧
    BuildOrder.InOrder [app, parent, lib] := by
  intro app lib parent tool
  have hok : (plan ⟨[app, lib, parent, tool], [], []⟩).outcome = .ok [parent, lib, tool, app] := by
    subst app lib parent tool
    rfl
  have hok' : (plan ⟨[app, lib, parent, tool], [⟨"h", "gone"⟩], [tool.key]⟩).outcome
      = .ok [app, parent, lib] := by
    subst app lib parent tool
    rfl
  obtain ⟨later, hlater, hperm, horder⟩ := plan_of_fewer hok [⟨"h", "gone"⟩] [tool.key]
  obtain rfl := Except.ok.inj (hok'.symm.trans hlater)
  exact ⟨hok, hok', hperm, horder⟩

end BuildSession

end Rebuild
