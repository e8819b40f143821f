import Mathlib.Data.List.Nodup
import Mathlib.Data.List.Induction
import Rebuild.BuildOrder

/-!
# Candidates with one key

The first candidate whose key was there before clashes with the one that had it. Before it the keys
are different, so there is one such holder. `findClash` finds these two, and finds nothing exactly
when all keys are different.
-/

namespace Rebuild.BuildOrder

variable {projects front back : List Project} {first second : Project}

/-- The second is the first candidate whose key an earlier one has, and the first is that one. -/
def Clash (projects : List Project) (first second : Project) : Prop :=
  ∃ front back, projects = front ++ second :: back ∧ (front.map (·.key)).Nodup ∧
    first ∈ front ∧ first.key = second.key

theorem exists_clash (hkeys : ¬ (projects.map (·.key)).Nodup) :
    ∃ first second, Clash projects first second := by
  induction projects using List.reverseRecOn with
  | nil => exact absurd List.nodup_nil hkeys
  | append_singleton init last ih =>
    by_cases hinit : (init.map (·.key)).Nodup
    · have hmem : last.key ∈ init.map (·.key) := by
        by_contra hfresh
        apply hkeys
        rw [List.map_append, List.map_singleton, ← List.concat_eq_append]
        exact hinit.concat hfresh
      obtain ⟨first, hfirst, hkey⟩ := List.mem_map.1 hmem
      exact ⟨first, last, init, [], rfl, hinit, hfirst, hkey⟩
    · obtain ⟨first, second, front, back, rfl, hclash⟩ := ih hinit
      exact ⟨first, second, front, back ++ [last], by simp, hclash⟩

/-- Among candidates with different keys, a key leads to the one candidate that has it. -/
theorem find?_key (hkeys : (front.map (·.key)).Nodup) (hfirst : first ∈ front) :
    front.find? (·.key = first.key) = some first := by
  cases hfind : front.find? (·.key = first.key) with
  | none => exact absurd (decide_eq_true rfl) (List.find?_eq_none.1 hfind first hfirst)
  | some holder =>
    have hkey : holder.key = first.key := by simpa using List.find?_some hfind
    rw [List.inj_on_of_nodup_map hkeys (List.mem_of_find?_eq_some hfind) hfirst hkey]

theorem find?_key_eq_none {earlier : List Project} {project : Project}
    (hkeys : ((earlier ++ project :: back).map (·.key)).Nodup) :
    earlier.find? (·.key = project.key) = none := by
  rw [List.find?_eq_none]
  intro holder hholder hkey
  rw [List.map_append, List.nodup_append] at hkeys
  exact hkeys.2.2 _ (List.mem_map_of_mem hholder) _ (List.mem_map_of_mem List.mem_cons_self)
    (of_decide_eq_true hkey)

theorem findClash_of_nodup {earlier rest : List Project}
    (hkeys : ((earlier ++ rest).map (·.key)).Nodup) : findClash earlier rest = none := by
  induction rest generalizing earlier with
  | nil => rfl
  | cons project rest ih =>
    rw [findClash, find?_key_eq_none hkeys]
    apply ih
    rwa [List.append_assoc, List.singleton_append]

theorem findClash_append {earlier : List Project}
    (hkeys : ((earlier ++ front).map (·.key)).Nodup) (hfirst : first ∈ earlier ++ front)
    (hkey : first.key = second.key) :
    findClash earlier (front ++ second :: back) = some (first, second) := by
  induction front generalizing earlier with
  | nil =>
    rw [List.append_nil] at hkeys hfirst
    rw [List.nil_append, findClash, ← hkey, find?_key hkeys hfirst]
  | cons project rest ih =>
    rw [List.cons_append, findClash, find?_key_eq_none hkeys]
    rw [← List.singleton_append, ← List.append_assoc] at hkeys hfirst
    exact ih hkeys hfirst

theorem findClash_of_clash (hclash : Clash projects first second) :
    findClash [] projects = some (first, second) := by
  obtain ⟨front, back, rfl, hkeys, hfirst, hkey⟩ := hclash
  exact findClash_append hkeys hfirst hkey

end Rebuild.BuildOrder
