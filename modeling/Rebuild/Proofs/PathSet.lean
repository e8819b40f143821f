import Mathlib.Data.List.Basic
import Rebuild.PathSet

/-!
# What is in a set of paths

Two paths that compare as equal have the same steps. So putting a path into a set makes it a member
in whatever spelling, keeps the other members, and adds nothing else.
-/

namespace Rebuild

namespace Path

theorem Same.symm {a b : Path} (h : a.Same b) : b.Same a := Eq.symm h

theorem Same.trans {a b c : Path} (hab : a.Same b) (hbc : b.Same c) : a.Same c := Eq.trans hab hbc

theorem Component.order_eq_eq_iff {a b : Component} : a.order b = .eq ↔ a = b := by
  cases a with
  | name n =>
    cases b with
    | name m =>
      rw [Component.order, Std.LawfulEqOrd.compare_eq_iff_eq, Component.name.injEq]
      cases n
      cases m
      simp
    | _ => simp [Component.order, Component.rank]
  | _ => cases b <;> simp [Component.order, Component.rank]

theorem orderComponents_eq_eq_iff {xs ys : List Component} :
    orderComponents xs ys = .eq ↔ xs = ys := by
  induction xs generalizing ys with
  | nil => cases ys <;> simp [orderComponents]
  | cons x xs ih =>
    cases ys with
    | nil => simp [orderComponents]
    | cons y ys =>
      rw [orderComponents, Ordering.then_eq_eq, Component.order_eq_eq_iff, ih, List.cons.injEq]

theorem order_eq_eq_iff {a b : Path} : a.order b = .eq ↔ a.Same b :=
  orderComponents_eq_eq_iff

end Path

namespace PathSet

variable {set : PathSet} {path first : Path} {paths : List Path}

theorem contains_iff : set.contains path ↔ ∃ member ∈ set.toList, member.Same path := by
  simp [contains]

theorem exists_mem_insertAscending_iff :
    (∃ member ∈ insertAscending first paths, member.Same path)
      ↔ first.Same path ∨ ∃ member ∈ paths, member.Same path := by
  induction paths with
  | nil => simp [insertAscending]
  | cons other rest ih =>
    rw [insertAscending]
    split
    case h_1 => simp
    case h_2 heq =>
      have hsame : first.Same other := Path.order_eq_eq_iff.1 heq
      constructor
      · exact Or.inr
      · rintro (hfirst | hmember)
        · exact ⟨other, List.mem_cons_self, hsame.symm.trans hfirst⟩
        · exact hmember
    case h_3 =>
      rw [List.exists_mem_cons_iff, ih, List.exists_mem_cons_iff]
      exact or_left_comm

theorem contains_insertAll_iff :
    (set.insertAll paths).contains path ↔ set.contains path ∨ ∃ member ∈ paths, member.Same path := by
  induction paths generalizing set with
  | nil => simp [insertAll]
  | cons first rest ih =>
    have hcons : set.insertAll (first :: rest) = (set.insert first).insertAll rest := rfl
    rw [hcons, ih, contains_iff, insert, exists_mem_insertAscending_iff, ← contains_iff,
      List.exists_mem_cons_iff, or_assoc]
    exact or_left_comm

end PathSet

end Rebuild
