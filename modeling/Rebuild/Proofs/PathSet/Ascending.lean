import Mathlib.Data.List.Forall2
import Mathlib.Data.List.Sort
import Rebuild.Proofs.PathSet

/-!
# Sets of paths are in order

The order of paths is transitive: it goes by the kinds of the steps and then by the texts of the
names, step by step, and each of these is an order. So a set that is put together path by path is
strictly ascending, and no path is in it twice, in whatever spelling. And since there is only one
way to list the same members in ascending order, two such sets with the same members are the same
list, but for the spelling.
-/

namespace Rebuild

namespace Path

namespace Component

/-- The text of a name; no other step has one. -/
def nameText : Component → String
  | name n => n.text
  | _ => ""

theorem order_eq_compareLex : order = compareLex (compareOn rank) (compareOn nameText) := by
  funext a b
  cases a <;> cases b <;>
    simp [order, compareLex, compareOn, rank, nameText, Nat.compare_eq_ite_lt]

instance : Std.TransCmp order := by
  rw [order_eq_compareLex]
  infer_instance

end Component

theorem orderComponents_eq_compareLex : orderComponents = List.compareLex Component.order := by
  funext xs ys
  induction xs generalizing ys with
  | nil => cases ys <;> rfl
  | cons x xs ih =>
    cases ys with
    | nil => rfl
    | cons y ys => rw [orderComponents, ih, List.compareLex_cons_cons]

instance : Std.TransCmp orderComponents := by
  rw [orderComponents_eq_compareLex]
  infer_instance

instance : Std.TransCmp order where
  eq_swap {a b} :=
    show orderComponents a.components b.components
      = (orderComponents b.components a.components).swap from Std.OrientedCmp.eq_swap
  isLE_trans {a _ c} hab hbc :=
    show (orderComponents a.components c.components).isLE from Std.TransCmp.isLE_trans hab hbc

end Path

namespace PathSet

variable {set other : PathSet} {path first : Path} {paths : List Path}

/-- Each path is before the ones that follow it. -/
def Ascending (paths : List Path) : Prop := paths.Pairwise fun a b => a.order b = .lt

/-- The same paths at the same places, perhaps spelled differently. -/
def Same (a b : PathSet) : Prop := List.Forall₂ Path.Same a.toList b.toList

/-! ### What is put in -/

theorem mem_of_mem_insertAscending (h : path ∈ insertAscending first paths) :
    path = first ∨ path ∈ paths := by
  induction paths with
  | nil => exact Or.inl (List.mem_singleton.1 h)
  | cons other rest ih =>
    rw [insertAscending] at h
    split at h
    case h_1 => exact List.mem_cons.1 h
    case h_2 => exact Or.inr h
    case h_3 =>
      rcases List.mem_cons.1 h with rfl | hrest
      · exact Or.inr List.mem_cons_self
      · exact (ih hrest).imp_right (List.mem_cons_of_mem other)

/-- What is in a set was put in, in this very spelling. -/
theorem mem_of_mem_insertAll (h : path ∈ (set.insertAll paths).toList) :
    path ∈ set.toList ∨ path ∈ paths := by
  induction paths generalizing set with
  | nil => exact Or.inl h
  | cons first rest ih =>
    rcases @ih (set.insert first) h with hset | hrest
    · rcases mem_of_mem_insertAscending hset with rfl | hset
      · exact Or.inr List.mem_cons_self
      · exact Or.inl hset
    · exact Or.inr (List.mem_cons_of_mem first hrest)

theorem Ascending.insertAscending (h : Ascending paths) : Ascending (insertAscending path paths) := by
  induction paths with
  | nil => exact List.pairwise_singleton _ path
  | cons first rest ih =>
    obtain ⟨hfirst, hrest⟩ := List.pairwise_cons.1 h
    rw [PathSet.insertAscending]
    split
    case h_1 hlt =>
      refine List.pairwise_cons.2 ⟨?_, h⟩
      intro later hlater
      rcases List.mem_cons.1 hlater with rfl | hlater
      · exact hlt
      · exact Std.TransCmp.lt_trans hlt (hfirst later hlater)
    case h_2 => exact h
    case h_3 hgt =>
      refine List.pairwise_cons.2 ⟨?_, ih hrest⟩
      intro later hlater
      rcases mem_of_mem_insertAscending hlater with rfl | hlater
      · exact Std.OrientedCmp.gt_iff_lt.1 hgt
      · exact hfirst later hlater

theorem Ascending.insertAll (h : Ascending set.toList) : Ascending (set.insertAll paths).toList := by
  induction paths generalizing set with
  | nil => exact h
  | cons first rest ih => exact @ih (set.insert first) h.insertAscending

theorem ascending_insertAll (paths : List Path) : Ascending (empty.insertAll paths).toList :=
  Ascending.insertAll List.Pairwise.nil

theorem insertAscending_eq_append (h : ∀ member ∈ paths, member.order path = .lt) :
    insertAscending path paths = paths ++ [path] := by
  induction paths with
  | nil => rfl
  | cons first rest ih =>
    obtain ⟨hfirst, hrest⟩ := List.forall_mem_cons.1 h
    rw [insertAscending, Std.OrientedCmp.gt_iff_lt.2 hfirst, ih hrest, List.cons_append]

/-- What comes in ascending order is put in at the end. -/
theorem toList_insertAll (h : Ascending (set.toList ++ paths)) :
    (set.insertAll paths).toList = set.toList ++ paths := by
  induction paths generalizing set with
  | nil => rw [List.append_nil]; rfl
  | cons first rest ih =>
    have hbefore : ∀ member ∈ set.toList, member.order first = .lt := fun member hmember =>
      (List.pairwise_append.1 h).2.2 member hmember first List.mem_cons_self
    have hset : (set.insert first).toList = set.toList ++ [first] :=
      insertAscending_eq_append hbefore
    have hwhole : set.toList ++ first :: rest = (set.insert first).toList ++ rest := by
      rw [hset, List.append_assoc, List.singleton_append]
    rw [hwhole] at h ⊢
    exact ih h

theorem Ascending.not_same (h : Ascending paths) : paths.Pairwise fun a b => ¬ a.Same b := by
  refine h.imp fun {a b} hlt hsame => ?_
  rw [Path.order_eq_eq_iff.2 hsame] at hlt
  cases hlt

/-! ### Sets with the same members -/

theorem same_iff : set.Same other ↔
    set.toList.map Path.components = other.toList.map Path.components := by
  rw [← List.forall₂_eq_eq_eq, List.forall₂_map_left_iff, List.forall₂_map_right_iff]
  rfl

theorem contains_iff_mem_components :
    set.contains path ↔ path.components ∈ set.toList.map Path.components := by
  rw [contains_iff, List.mem_map]
  rfl

instance : Std.Irrefl fun xs ys => Path.orderComponents xs ys = .lt where
  irrefl _ h := Std.OrientedCmp.not_lt_of_lt h h

instance : Std.Antisymm fun xs ys => Path.orderComponents xs ys = .lt where
  antisymm _ _ hxy hyx := absurd hyx (Std.OrientedCmp.not_lt_of_lt hxy)

theorem Ascending.map_components (h : Ascending paths) :
    (paths.map Path.components).Pairwise fun xs ys => Path.orderComponents xs ys = .lt :=
  List.pairwise_map.2 h

/-- Ascending sets with the same members list the same paths in the same places. -/
theorem Ascending.same (hset : Ascending set.toList) (hother : Ascending other.toList)
    (h : ∀ path, set.contains path ↔ other.contains path) : set.Same other := by
  rw [same_iff]
  apply hset.map_components.eq_of_mem_iff hother.map_components
  intro components
  constructor
  · intro hmem
    obtain ⟨path, hpath, rfl⟩ := List.mem_map.1 hmem
    exact contains_iff_mem_components.1 ((h path).1 (contains_iff_mem_components.2 hmem))
  · intro hmem
    obtain ⟨path, hpath, rfl⟩ := List.mem_map.1 hmem
    exact contains_iff_mem_components.1 ((h path).2 (contains_iff_mem_components.2 hmem))

end PathSet

end Rebuild
