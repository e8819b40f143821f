import Rebuild.Proofs.Graph.Tables

/-!
# The counts of a sort

A sort never looks back at the edges into a vertex. It begins with their number and takes one off
whenever it releases the vertex, so the number must stay that of the predecessors that are still to
come, or a vertex would be placed too early, twice, or with a count below zero. What guards this is
that no edge is listed twice: a vertex whose count is about to be taken down still waits for the one
that is being placed, and is not ready.

A step is not one change but several, and a release in the middle of it finds the counts half taken
down. What is seen there is told apart from what holds between two steps.
-/

namespace Rebuild.Graph

variable {g : Graph} {p : Progress} {requests : List Request} {v w : Nat}
  {rest front back : List Nat}

/-- The middle of a step: the first ready vertex is placed, and some vertices have been released. -/
def Progress.placing (p : Progress) (v : Nat) (rest released : List Nat) : Progress :=
  released.foldl Progress.release { p with ready := rest, placed := p.placed ++ [v] }

namespace Sound

/-- A vertex that is about to be released has its count as it was before the step, still waits for
the vertex that is placed, and is not ready. -/
theorem about_to_release (hp : g.Sound p) (hg : g.WellFormed) (hready : p.ready = v :: rest)
    (hsuccessors : g.successorsOf v = front ++ w :: back) :
    (p.placing v rest front).waiting.getD w 0 = p.waiting.getD w 0 ∧
      0 < p.waiting.getD w 0 ∧ w ∉ (p.placing v rest front).ready := by
  have hnodup : (front ++ w :: back).Nodup := hsuccessors ▸ hg.nodup_successors v
  have hfront : front.Nodup := (List.nodup_append.1 hnodup).1
  have hw : w ∉ front := fun hmem =>
    List.disjoint_of_nodup_append hnodup hmem List.mem_cons_self
  have hmem : w ∈ g.successorsOf v := hsuccessors ▸ List.mem_append_right front List.mem_cons_self
  have hpos : 0 < p.waiting.getD w 0 :=
    hp.waiting_pos hg (edge_iff_mem_successorsOf.2 hmem) (hp.of_ready_cons hready).2.1
  refine ⟨?_, hpos, ?_⟩
  · rw [Progress.placing, Progress.waiting_foldl_release hfront, if_neg hw]
  · rw [Progress.placing, Progress.mem_ready_foldl_release hfront]
    rintro (hrest | ⟨hreleased, -⟩)
    · exact hp.successor_not_mem_ready hg hready hmem (hready ▸ List.mem_cons_of_mem v hrest)
    · exact hw hreleased

end Sound

/-- The counts that a sort begins with are the lengths of the rows of the predecessor table. -/
theorem waiting_begin_of_shows {t : Tables} (h : t.Shows g) :
    g.begin.waiting = t.predecessors.map List.length := by
  apply List.ext_getElem
  · simp [begin, h.length_predecessors]
  · intro v hv hv'
    have hlength : v < t.predecessors.length := by simpa using hv'
    have hrow : t.predecessors[v] = t.predecessorsOf v := by
      rw [Tables.predecessorsOf, List.getD_eq_getElem]
    simp only [begin, List.getElem_map, List.getElem_range]
    rw [hrow, h.predecessorsOf_eq]

/-- A sort of what requests have built begins with the number of predecessors of each vertex. In
each of its states a vertex is counted those of its predecessors that are not placed. The ready
vertices are those that are not placed and have nothing to wait for, each of them once, and no
vertex is placed twice. A step places the first ready vertex and releases its successors one after
the other, and each release finds a count above zero and a vertex that is not ready, so no count
falls below zero and no vertex becomes ready twice. As many steps as there are vertices lead to a
state where nothing is ready; in such a state the vertices that are missing are those that still
wait, and each of them has a predecessor that is missing too. -/
theorem counts_of_requests (hbuild : build? requests = some g) :
    (∃ t, Tables.build? requests = some t ∧ g.begin.waiting = t.predecessors.map List.length ∧
      ∀ v, t.successorsOf v = g.successorsOf v) ∧
    (∀ n, let p := g.progressAfter n
      (∀ v < g.size, p.waiting.getD v 0 = (g.unplaced p.placed v).length) ∧
      (∀ v, v ∈ p.ready ↔ v < g.size ∧ v ∉ p.placed ∧ p.waiting.getD v 0 = 0) ∧
      p.ready.Nodup ∧ p.placed.Nodup ∧
      ∀ v rest, p.ready = v :: rest → g.step p = p.placing v rest (g.successorsOf v) ∧
        ∀ front w back, g.successorsOf v = front ++ w :: back →
          0 < (p.placing v rest front).waiting.getD w 0 ∧ w ∉ (p.placing v rest front).ready) ∧
    (g.progressAfter g.size).ready = [] ∧
    ∀ n, let p := g.progressAfter n
      p.ready = [] → ∀ v < g.size, (v ∉ p.placed ↔ 0 < p.waiting.getD v 0) ∧
        (v ∉ p.placed → ∃ u, g.Edge u v ∧ u ∉ p.placed) := by
  have hg : g.WellFormed := .of_build? hbuild
  obtain ⟨t, ht, hshows⟩ := Tables.exists_shows hbuild
  refine ⟨⟨t, ht, waiting_begin_of_shows hshows, hshows.successorsOf_eq⟩, ?_,
    ready_progressAfter_size hg, ?_⟩
  · intro n p
    have hp : g.Sound p := sound_progressAfter hg n
    refine ⟨hp.waiting_eq, hp.mem_ready, hp.ready_ascending.imp Nat.ne_of_lt, hp.nodup_placed, ?_⟩
    intro v rest hready
    refine ⟨step_of_ready hready, fun front w back hsuccessors => ?_⟩
    obtain ⟨hcount, hpos, hfresh⟩ := hp.about_to_release hg hready hsuccessors
    exact ⟨by rwa [hcount], hfresh⟩
  · intro n p hready v hv
    have hp : g.Sound p := sound_progressAfter hg n
    have hwaits := hp.waiting_pos_iff hg hready hv
    exact ⟨hwaits.symm, fun hplaced => hp.exists_unplaced_of_waiting_pos hg hv (hwaits.2 hplaced)⟩

/-- A vertex with an edge to itself is never placed, nor is the one that it leads to. A vertex with
a parent that is also a dependency is released once. -/
theorem counts_of_self_loop :
    let requests : List Request := [.vertex "a", .vertex "b", .vertex "c", .vertex "d",
      .edge 0 1 .dependency, .edge 1 1 .dependency, .edge 1 2 .dependency, .edge 0 3 .dependency,
      .edge 0 3 .parent]
    let g : Graph := ⟨["a", "b", "c", "d"],
      [[(1, .dependency), (3, .parent)], [(1, .dependency), (2, .dependency)], [], []],
      [[], [0, 1], [1], [0]]⟩
    build? requests = some g ∧ g.begin.waiting = [0, 2, 1, 1] ∧
    0 < (g.begin.placing 0 [] [1]).waiting.getD 3 0 ∧
    (g.progressAfter 2).placed = [0, 3] ∧ (g.progressAfter 2).ready = [] ∧
    0 < (g.progressAfter 2).waiting.getD 2 0 ∧
    ∃ u, g.Edge u 2 ∧ u ∉ (g.progressAfter 2).placed := by
  intro requests g
  have hbuild : build? requests = some g := rfl
  have hready : (g.progressAfter 2).ready = [] := by decide
  have hplaced : (g.progressAfter 2).placed = [0, 3] := by decide
  obtain ⟨-, hstates, -, hends⟩ := counts_of_requests hbuild
  obtain ⟨-, -, -, -, hsteps⟩ := hstates 0
  obtain ⟨-, hreleases⟩ := hsteps 0 [] rfl
  obtain ⟨hwaits, hmissing⟩ := hends 2 hready 2 (by decide)
  have hout : 2 ∉ (g.progressAfter 2).placed := by simp [hplaced]
  exact ⟨hbuild, by decide, (hreleases [1] 3 [] rfl).1, hplaced, hready, hwaits.1 hout,
    hmissing hout⟩

end Rebuild.Graph
