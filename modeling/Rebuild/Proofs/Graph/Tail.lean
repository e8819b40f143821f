import Mathlib.Order.Hom.Basic
import Rebuild.Proofs.Graph.Linearization

/-!
# The sort of what is left

Take away the vertices that a sort placed first and sort the rest anew. The rest keeps the edges
between its vertices, and its vertices are numbered anew in the old order. Then the second sort goes
on where the first one was: it finds the vertices that came later in the first order, in the same
sequence.

No run is compared with another. What was placed, followed by any order of the rest, is an order of
all vertices. So the first of all orders ends in the first of the orders of the rest.
-/

namespace Rebuild.Graph

variable {g rest : Graph} {placed left order other : List Nat} {f : Nat ↪o Nat}

/-! ### The first of all orders -/

/-- Only one order is the first one. -/
theorem sort_eq_ok_of_first (hg : g.WellFormed) (horder : g.Linearization order)
    (hfirst : ∀ other, g.Linearization other → order = other ∨ List.Lex (· < ·) order other) :
    g.sort = .ok order := by
  obtain ⟨found, hfound⟩ := (exists_sort_iff_acyclic hg).2 horder.acyclic
  rcases eq_or_lex_of_sort hg hfound horder with rfl | hlt
  · exact hfound
  · rcases hfirst found (linearization_of_sort hg hfound) with rfl | hgt
    · exact hfound
    · exact absurd hgt (Std.Asymm.asymm _ _ hlt)

theorem lex_of_map {xs ys : List Nat} (h : List.Lex (· < ·) (xs.map f) (ys.map f)) :
    List.Lex (· < ·) xs ys := by
  induction xs generalizing ys with
  | nil =>
    cases ys with
    | nil => exact h
    | cons y ys => exact .nil
  | cons x xs ih =>
    cases ys with
    | nil => cases h
    | cons y ys =>
      rw [List.map_cons, List.map_cons, List.cons_lex_cons_iff] at h
      rcases h with hlt | ⟨heq, htail⟩
      · exact .rel (f.lt_iff_lt.1 hlt)
      · obtain rfl := f.injective heq
        exact .cons (ih htail)

theorem lex_of_append_left {front xs ys : List Nat}
    (h : List.Lex (· < ·) (front ++ xs) (front ++ ys)) : List.Lex (· < ·) xs ys := by
  induction front with
  | nil => exact h
  | cons a front ih => exact ih (List.lex_cons_iff.1 h)

/-! ### Orders of all vertices and orders of the rest -/

theorem Linearization.tail (hrest : rest.WellFormed)
    (hedge : ∀ i j, rest.Edge i j ↔ g.Edge (f i) (f j))
    (hleft : left.Perm (List.range rest.size)) (h : g.Linearization (placed ++ left.map f)) :
    rest.Linearization left := by
  refine ⟨hleft, ?_⟩
  intro u v huv
  have hu : u ∈ left := hleft.mem_iff.2 (List.mem_range.2 (hrest.lt_of_edge_left huv))
  have hbefore : StandsBefore (left.map f) (f u) (f v) :=
    (h.forward _ _ ((hedge u v).1 huv)).right_of_append h.nodup (List.mem_map_of_mem hu)
  exact hbefore.of_map f.injective

theorem Linearization.replace_tail (hedge : ∀ i j, rest.Edge i j ↔ g.Edge (f i) (f j))
    (hleft : left.Perm (List.range rest.size)) (h : g.Linearization (placed ++ left.map f))
    (hg : g.WellFormed) (hother : rest.Linearization other) :
    g.Linearization (placed ++ other.map f) := by
  have hperm : (other.map f).Perm (left.map f) := (hother.perm.trans hleft.symm).map f
  have hmem : ∀ v < g.size, v ∈ placed ∨ ∃ i, f i = v ∧ i ∈ left := by
    intro v hv
    rcases List.mem_append.1 (h.perm.mem_iff.2 (List.mem_range.2 hv)) with hv | hv
    · exact Or.inl hv
    · obtain ⟨i, hi, rfl⟩ := List.mem_map.1 hv
      exact Or.inr ⟨i, rfl, hi⟩
  refine ⟨(hperm.append_left placed).trans h.perm, ?_⟩
  intro u v huv
  have hbefore := h.forward u v huv
  -- What is placed waits only for what was placed before it; the rest is in the order of the rest.
  rcases hmem v (hg.lt_of_edge_right huv) with hv | ⟨j, rfl, hj⟩
  · exact (hbefore.left_of_append h.nodup hv).append _
  · have hlast : f j ∈ other.map f := hperm.mem_iff.2 (List.mem_map_of_mem hj)
    rcases hmem u (hg.lt_of_edge_left huv) with hu | ⟨i, rfl, _⟩
    · exact StandsBefore.of_mem_append hu hlast
    · exact ((hother.forward i j ((hedge i j).2 huv)).map f).append_right placed

/-- A sort of what comes later in an order goes on in that order. -/
theorem sort_of_tail (hg : g.WellFormed) (hrest : rest.WellFormed)
    (hedge : ∀ i j, rest.Edge i j ↔ g.Edge (f i) (f j))
    (hleft : left.Perm (List.range rest.size)) (hsort : g.sort = .ok (placed ++ left.map f)) :
    rest.sort = .ok left := by
  have h := linearization_of_sort hg hsort
  apply sort_eq_ok_of_first hrest (h.tail hrest hedge hleft)
  intro other hother
  rcases eq_or_lex_of_sort hg hsort (h.replace_tail hedge hleft hg hother) with heq | hlt
  · exact Or.inl (f.injective.list_map (List.append_cancel_left heq))
  · exact Or.inr (lex_of_map (lex_of_append_left hlt))

end Rebuild.Graph
