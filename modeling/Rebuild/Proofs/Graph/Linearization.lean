import Mathlib.Data.List.Lex
import Rebuild.Proofs.Graph.Cycle

/-!
# The order that a sort finds

A sort finds an order in which every edge points forward whenever there is one, and of all such
orders it finds the first in the lexicographic sense. The second part needs no exchange of vertices.
While what is placed is the beginning of some such order, the vertex that comes next in that order
is ready too. So the step either follows that order or takes a lower vertex, and from there on it is
ahead.
-/

namespace Rebuild

theorem StandsBefore.mem_of_append {α : Type} [DecidableEq α] {front back : List α} {a b : α}
    (hnodup : (front ++ b :: back).Nodup) (h : StandsBefore (front ++ b :: back) a b) :
    a ∈ front := by
  have hlt := h.idxOf_lt hnodup
  have hb : b ∉ front := fun hmem =>
    (List.nodup_append.1 hnodup).2.2 b hmem b List.mem_cons_self rfl
  by_contra ha
  rw [List.idxOf_append_of_notMem ha, List.idxOf_append_of_notMem hb, List.idxOf_cons_self] at hlt
  omega

namespace Graph

variable {g : Graph} {p : Progress} {order other : List Nat}

/-- No vertex leads back to itself. -/
def Acyclic (g : Graph) : Prop := ∀ v, ¬ Relation.TransGen g.Edge v v

/-- All vertices, in an order in which every edge points forward. -/
structure Linearization (g : Graph) (order : List Nat) : Prop where
  perm : order.Perm (List.range g.size)
  forward : ∀ u v, g.Edge u v → StandsBefore order u v

namespace Linearization

theorem nodup (h : g.Linearization order) : order.Nodup :=
  h.perm.nodup_iff.2 List.nodup_range

theorem length (h : g.Linearization order) : order.length = g.size := by
  rw [h.perm.length_eq, List.length_range]

theorem acyclic (h : g.Linearization order) : g.Acyclic :=
  not_transGen_self_of_standsBefore h.nodup h.forward

end Linearization

/-! ### Ahead of every other order -/

/-- The one list has a lower number where the two first differ. -/
def Ahead (xs ys : List Nat) : Prop :=
  ∃ common a b, (common ++ [a]) <+: xs ∧ (common ++ [b]) <+: ys ∧ a < b

theorem Ahead.append {xs ys : List Nat} (h : Ahead xs ys) (zs : List Nat) :
    Ahead (xs ++ zs) ys := by
  obtain ⟨common, a, b, hxs, hys, hlt⟩ := h
  exact ⟨common, a, b, hxs.trans (List.prefix_append xs zs), hys, hlt⟩

theorem Ahead.lex {xs ys : List Nat} (h : Ahead xs ys) : List.Lex (· < ·) xs ys := by
  obtain ⟨common, a, b, ⟨xs', rfl⟩, ⟨ys', rfl⟩, hlt⟩ := h
  rw [List.append_assoc, List.append_assoc]
  exact List.Lex.append_left _ (.rel hlt) common

/-- What comes next in an order that begins with what is placed is ready. -/
theorem Sound.mem_ready_of_next (hp : g.Sound p) (hg : g.WellFormed) {next : Nat} {back : List Nat}
    (hother : g.Linearization (p.placed ++ next :: back)) : next ∈ p.ready := by
  have hnext : next < g.size :=
    List.mem_range.1 (hother.perm.mem_iff.1 (List.mem_append_right _ List.mem_cons_self))
  rw [hp.mem_ready]
  refine ⟨hnext, ?_, ?_⟩
  · intro hplaced
    exact (List.nodup_append.1 hother.nodup).2.2 next hplaced next List.mem_cons_self rfl
  · by_contra hpos
    obtain ⟨u, hedge, hu⟩ := hp.exists_unplaced_of_waiting_pos hg hnext (Nat.pos_of_ne_zero hpos)
    exact hu ((hother.forward u next hedge).mem_of_append hother.nodup)

theorem Sound.prefix_or_ahead_step (hp : g.Sound p) (hg : g.WellFormed) (hother : g.Linearization other)
    (h : p.placed <+: other ∨ Ahead p.placed other) :
    (g.step p).placed <+: other ∨ Ahead (g.step p).placed other := by
  cases hready : p.ready with
  | nil => rwa [step_of_ready_nil hready]
  | cons v rest =>
    rw [placed_step hready]
    rcases h with ⟨tail, rfl⟩ | hahead
    · obtain ⟨hv, hplaced, _⟩ := hp.of_ready_cons hready
      have hmem : v ∈ tail :=
        (List.mem_append.1 (hother.perm.mem_iff.2 (List.mem_range.2 hv))).resolve_left hplaced
      obtain ⟨next, back, rfl⟩ := List.exists_cons_of_ne_nil (List.ne_nil_of_mem hmem)
      have hnext := hp.mem_ready_of_next hg hother
      have hprefix : p.placed ++ [next] <+: p.placed ++ next :: back :=
        List.prefix_append_right_inj p.placed |>.2 ⟨back, rfl⟩
      rw [hready] at hnext
      -- The step takes the lowest ready vertex, so that is the next one or a lower one.
      rcases List.mem_cons.1 hnext with rfl | hrest
      · exact Or.inl hprefix
      · have hlt := (hp.lt_of_ready_cons hready).1 next hrest
        exact Or.inr ⟨p.placed, v, next, List.prefix_refl _, hprefix, hlt⟩
    · exact Or.inr (hahead.append [v])

theorem prefix_or_ahead_progressAfter (hg : g.WellFormed) (hother : g.Linearization other)
    (n : Nat) :
    (g.progressAfter n).placed <+: other ∨ Ahead (g.progressAfter n).placed other := by
  induction n with
  | zero => exact Or.inl (List.nil_prefix)
  | succ n ih => exact (sound_progressAfter hg n).prefix_or_ahead_step hg hother ih

/-! ### The order of a sort -/

theorem sort_eq_ok_iff :
    g.sort = .ok order ↔ (g.progressAfter g.size).placed.length = g.size
      ∧ (g.progressAfter g.size).placed = order := by
  rw [sort]
  split
  case isTrue hlength => simp [hlength]
  case isFalse hlength => simp [hlength]

theorem linearization_of_sort (hg : g.WellFormed) (hsort : g.sort = .ok order) :
    g.Linearization order := by
  obtain ⟨hlength, rfl⟩ := sort_eq_ok_iff.1 hsort
  have hp := sound_progressAfter hg g.size
  have hperm := hp.placed_perm hlength
  refine ⟨hperm, ?_⟩
  intro u v hedge
  exact hp.forward u v hedge (hperm.mem_iff.2 (List.mem_range.2 (hg.lt_of_edge_right hedge)))

/-- No order comes before the one that a sort finds. -/
theorem eq_or_lex_of_sort (hg : g.WellFormed) (hsort : g.sort = .ok order)
    (hother : g.Linearization other) : order = other ∨ List.Lex (· < ·) order other := by
  obtain ⟨hlength, rfl⟩ := sort_eq_ok_iff.1 hsort
  rcases prefix_or_ahead_progressAfter hg hother g.size with hprefix | hahead
  · exact Or.inl (List.IsPrefix.eq_of_length hprefix (hlength.trans hother.length.symm))
  · exact Or.inr hahead.lex

theorem exists_sort_iff_acyclic (hg : g.WellFormed) :
    (∃ order, g.sort = .ok order) ↔ g.Acyclic := by
  constructor
  · rintro ⟨order, hsort⟩
    exact (linearization_of_sort hg hsort).acyclic
  · intro hacyclic
    cases hsort : g.sort with
    | ok order => exact ⟨order, rfl⟩
    | error cycle =>
      obtain ⟨v, hv⟩ := (liesIn_of_sort_eq_error hg hsort).exists_transGen
      exact absurd hv (hacyclic v)

/-- A sort succeeds on the graphs without cycles, and then its order is the lexicographically first
of all those in which every edge points forward. -/
theorem sort_is_first_linearization {requests : List Request} (hbuild : build? requests = some g) :
    ((∃ order, g.sort = .ok order) ↔ g.Acyclic) ∧
    ∀ order, g.sort = .ok order →
      g.Linearization order ∧
      ∀ other, g.Linearization other → order = other ∨ List.Lex (· < ·) order other := by
  have hg := WellFormed.of_build? hbuild
  refine ⟨exists_sort_iff_acyclic hg, ?_⟩
  intro order hsort
  refine ⟨linearization_of_sort hg hsort, ?_⟩
  intro other hother
  exact eq_or_lex_of_sort hg hsort hother

/-- The vertices that are free from the start go before the one that the first vertex waits for. -/
theorem first_linearization_of_late_root :
    let requests : List Request :=
      [.vertex "a", .vertex "b", .vertex "c", .vertex "d", .edge 3 0 .dependency]
    let g : Graph := ⟨["a", "b", "c", "d"], [[], [], [], [(0, .dependency)]], [[3], [], [], []]⟩
    build? requests = some g ∧ g.sort = .ok [1, 2, 3, 0] ∧
      ∀ other, g.Linearization other →
        [1, 2, 3, 0] = other ∨ List.Lex (· < ·) [1, 2, 3, 0] other := by
  intro requests g
  have hbuild : build? requests = some g := rfl
  have hsort : g.sort = .ok [1, 2, 3, 0] := rfl
  exact ⟨hbuild, hsort, ((sort_is_first_linearization hbuild).2 [1, 2, 3, 0] hsort).2⟩

end Graph

end Rebuild
