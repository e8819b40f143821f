import Mathlib.Data.List.Chain
import Mathlib.Data.List.Rotate
import Rebuild.Proofs.Graph.Progress

/-!
# The cycle that a sort reports

When a sort gets stuck, every stuck vertex has a stuck predecessor, so the walk back never lacks
one. It visits stuck vertices only and none of them twice. So it must come back to one that it has
visited, after as many steps as there are vertices at most. From there on it is a closed walk, and
turned round it goes along the edges.
-/

namespace Rebuild

/-- A cycle of a graph: different vertices, each with an edge to the next one and the last with an
edge to the first, and the kinds of these edges. -/
structure Cycle.LiesIn (cycle : Cycle) (g : Graph) : Prop where
  ne_nil : cycle.vertices ≠ []
  lt_size : ∀ v ∈ cycle.vertices, v < g.size
  nodup : cycle.vertices.Nodup
  length_kinds : cycle.kinds.length = cycle.vertices.length
  edge : ∀ i < cycle.vertices.length, ∃ before after kind,
    cycle.vertices[i]? = some before ∧
    cycle.vertices[(i + 1) % cycle.vertices.length]? = some after ∧
    cycle.kinds[i]? = some kind ∧ g.kind? before after = some kind

namespace Graph

variable {g : Graph} {stuck : Nat → Bool} {v : Nat}

/-! ### Neighbours in a ring -/

theorem pairsAround_eq_zip_rotate {α : Type} (ring : List α) :
    pairsAround ring = ring.zip (ring.rotate 1) := by
  cases ring with
  | nil => rfl
  | cons first rest => simp [pairsAround]

theorem getElem?_pairsAround {α : Type} {ring : List α} {i : Nat} (hi : i < ring.length) (a b : α) :
    (pairsAround ring)[i]? = some (a, b)
      ↔ ring[i]? = some a ∧ ring[(i + 1) % ring.length]? = some b := by
  rw [pairsAround_eq_zip_rotate, List.getElem?_zip_eq_some, List.getElem?_rotate hi]

/-- Neighbours in a closed walk are related, also the last and the first. -/
theorem rel_of_mem_pairsAround {α : Type} {r : α → α → Prop} {front : List α} {a : α}
    (hchain : (a :: (front ++ [a])).IsChain r) {pair : α × α}
    (hpair : pair ∈ pairsAround (front ++ [a])) : r pair.1 pair.2 := by
  obtain ⟨i, hsome⟩ := List.mem_iff_getElem?.1 hpair
  have hi : i < (front ++ [a]).length := by
    have hlt := (List.getElem?_eq_some_iff.1 hsome).1
    rw [pairsAround_eq_zip_rotate, List.length_zip, List.length_rotate, Nat.min_self] at hlt
    exact hlt
  obtain ⟨hbefore, hafter⟩ := (getElem?_pairsAround hi pair.1 pair.2).1 hsome
  rw [List.isChain_iff_getElem] at hchain
  rcases Nat.lt_or_eq_of_le (Nat.succ_le_of_lt hi) with hinner | hlast
  · rw [Nat.mod_eq_of_lt hinner] at hafter
    obtain ⟨_, hbefore⟩ := List.getElem?_eq_some_iff.1 hbefore
    obtain ⟨_, hafter⟩ := List.getElem?_eq_some_iff.1 hafter
    have hstep := hchain (i + 1) (by rw [List.length_cons]; omega)
    rwa [List.getElem_cons_succ, List.getElem_cons_succ, hbefore, hafter] at hstep
  · have hinside : i = front.length := by
      rw [List.length_append, List.length_singleton] at hlast
      omega
    rw [← hlast, Nat.mod_self] at hafter
    rw [hinside, List.getElem?_concat_length, Option.some.injEq] at hbefore
    obtain ⟨hpos, hafter⟩ := List.getElem?_eq_some_iff.1 hafter
    have hstep := hchain 0 (by rw [List.length_cons]; omega)
    rw [List.getElem_cons_zero, List.getElem_cons_succ, hafter] at hstep
    rwa [← hbefore]

/-! ### The walk back -/

/-- The lowest stuck predecessor of a vertex, if it has one. -/
def lowestBefore? (g : Graph) (stuck : Nat → Bool) (v : Nat) : Option Nat :=
  ((g.predecessorsOf v).filter stuck).min?

theorem lowestBefore_eq_getD : g.lowestBefore stuck v = (g.lowestBefore? stuck v).getD v := rfl

theorem exists_lowestBefore? (hg : g.WellFormed) (h : ∃ u, g.Edge u v ∧ stuck u) :
    ∃ u, g.lowestBefore? stuck v = some u ∧ g.Edge u v ∧ stuck u := by
  obtain ⟨u, hedge, hstuck⟩ := h
  have hmem : u ∈ (g.predecessorsOf v).filter stuck :=
    List.mem_filter.2 ⟨hg.mem_predecessorsOf.2 hedge, hstuck⟩
  cases hlowest : g.lowestBefore? stuck v with
  | none =>
    rw [lowestBefore?, List.min?_eq_none_iff] at hlowest
    rw [hlowest] at hmem
    cases hmem
  | some low =>
    have hlow := List.mem_filter.1 (List.min?_mem hlowest)
    exact ⟨low, rfl, hg.mem_predecessorsOf.1 hlow.1, hlow.2⟩

/-- What a walk back has done when it ends: it visited stuck vertices, none of them twice, along
edges, and came back to one of them. -/
structure ClosedWalk (g : Graph) (stuck : Nat → Bool) (again : Nat) (walk : List Nat) : Prop where
  again_mem : again ∈ walk
  nodup : walk.Nodup
  lt_size : ∀ v ∈ walk, v < g.size
  stuck_of_mem : ∀ v ∈ walk, stuck v
  chain : (again :: walk).IsChain g.Edge

theorem closedWalk_walkBack (hg : g.WellFormed) (hstuck : ∀ v, stuck v → v < g.size)
    (hbefore : ∀ v, stuck v → ∃ u, g.Edge u v ∧ stuck u) (unvisited : List Nat) (walk : List Nat)
    (hperm : (unvisited ++ walk).Perm (List.range g.size)) (hwalk : ∀ w ∈ v :: walk, stuck w)
    (hchain : (v :: walk).IsChain g.Edge) :
    g.ClosedWalk stuck (g.walkBack stuck unvisited v walk).1
      (g.walkBack stuck unvisited v walk).2 := by
  -- What is unvisited and the walk are together all vertices, each of them once.
  fun_induction walkBack g stuck unvisited v walk with
  | case1 unvisited v walk hv ih =>
    obtain ⟨low, hlow, hedge, hlowStuck⟩ :=
      exists_lowestBefore? hg (hbefore v (hwalk v List.mem_cons_self))
    rw [lowestBefore_eq_getD, hlow, Option.getD_some] at ih ⊢
    apply ih
    · have hmove := (List.perm_cons_erase hv).append_right walk
      exact (List.perm_middle.trans hmove.symm).trans hperm
    · intro w hw
      rcases List.mem_cons.1 hw with rfl | hw
      · exact hlowStuck
      · exact hwalk w hw
    · exact List.isChain_cons_cons.2 ⟨hedge, hchain⟩
  | case2 unvisited v walk hv =>
    have hmem : v ∈ unvisited ++ walk :=
      hperm.mem_iff.2 (List.mem_range.2 (hstuck v (hwalk v List.mem_cons_self)))
    refine ⟨?_, ?_, ?_, ?_, hchain⟩
    · exact (List.mem_append.1 hmem).resolve_left hv
    · exact (List.nodup_append.1 (hperm.nodup_iff.2 List.nodup_range)).2.1
    · intro w hw
      exact List.mem_range.1 (hperm.mem_iff.1 (List.mem_append_right unvisited hw))
    · intro w hw
      exact hwalk w (List.mem_cons_of_mem v hw)

/-- What `findCycle` makes of a closed walk is the part up to the vertex where it closed. -/
theorem ClosedWalk.exists_ring {again : Nat} {walk : List Nat} (h : g.ClosedWalk stuck again walk) :
    ∃ front, walk.takeWhile (· ≠ again) = front ∧ (front ++ [again]).Sublist walk
      ∧ (again :: (front ++ [again])).IsChain g.Edge := by
  obtain ⟨front, back, rfl, hfront⟩ := List.eq_append_cons_of_mem h.again_mem
  have htake : (front ++ again :: back).takeWhile (· ≠ again) = front := by
    rw [List.takeWhile_append_of_pos, List.takeWhile_cons_of_neg (by simp), List.append_nil]
    intro v hv
    exact decide_eq_true fun heq => hfront (heq ▸ hv)
  have hsplit : front ++ again :: back = front ++ [again] ++ back := by simp
  refine ⟨front, htake, ?_, ?_⟩
  · rw [hsplit]
    exact List.sublist_append_left _ _
  · have hchain := h.chain
    rw [hsplit, ← List.cons_append] at hchain
    exact hchain.left_of_append

theorem findCycle_liesIn {start : Nat} (hstart : (List.range g.size).find? stuck = some start)
    (hwalk : g.ClosedWalk stuck (g.walkBack stuck (List.range g.size) start []).1
      (g.walkBack stuck (List.range g.size) start []).2) :
    (g.findCycle stuck).LiesIn g := by
  obtain ⟨front, htake, hsub, hchain⟩ := hwalk.exists_ring
  have hvertices : (g.findCycle stuck).vertices
      = front ++ [(g.walkBack stuck (List.range g.size) start []).1] := by
    rw [← htake, findCycle, hstart]
    rfl
  have hkinds : (g.findCycle stuck).kinds = (pairsAround (g.findCycle stuck).vertices).map
      fun pair => (g.kind? pair.1 pair.2).getD .dependency := rfl
  refine ⟨?_, ?_, ?_, ?_, ?_⟩
  · rw [hvertices]
    exact List.concat_ne_nil _ _
  · rw [hvertices]
    exact fun v hv => hwalk.lt_size v (hsub.subset hv)
  · rw [hvertices]
    exact hsub.nodup hwalk.nodup
  · rw [hkinds, List.length_map, pairsAround_eq_zip_rotate, List.length_zip, List.length_rotate,
      Nat.min_self]
  · intro i hi
    have hnext : (i + 1) % (g.findCycle stuck).vertices.length
        < (g.findCycle stuck).vertices.length := Nat.mod_lt _ (Nat.zero_lt_of_lt hi)
    obtain ⟨before, hbefore⟩ : ∃ before, (g.findCycle stuck).vertices[i]? = some before :=
      ⟨_, List.getElem?_eq_getElem hi⟩
    obtain ⟨after, hafter⟩ : ∃ after, (g.findCycle stuck).vertices[
        (i + 1) % (g.findCycle stuck).vertices.length]? = some after :=
      ⟨_, List.getElem?_eq_getElem hnext⟩
    have hpair := (getElem?_pairsAround hi before after).2 ⟨hbefore, hafter⟩
    have hedge : g.Edge before after := by
      have hmem := List.mem_of_getElem? hpair
      rw [hvertices] at hmem
      exact rel_of_mem_pairsAround hchain hmem
    obtain ⟨kind, hkind⟩ := Option.isSome_iff_exists.1 hedge
    refine ⟨before, after, kind, hbefore, hafter, ?_, hkind⟩
    rw [hkinds, List.getElem?_map, hpair, Option.map_some, hkind, Option.getD_some]

/-! ### The reported cycle -/

/-- A sort that does not place everything leaves something stuck. -/
theorem exists_stuck (hg : g.WellFormed)
    (hlength : (g.progressAfter g.size).placed.length ≠ g.size) :
    ∃ start, (List.range g.size).find? (g.progressAfter g.size).stuck = some start := by
  have hp := sound_progressAfter hg g.size
  rw [← Option.isSome_iff_exists, List.find?_isSome]
  by_contra hnone
  apply hlength
  apply Nat.le_antisymm (length_le_of_nodup_of_lt hp.nodup_placed hp.lt_of_placed)
  have hsub : List.range g.size ⊆ (g.progressAfter g.size).placed := by
    intro v hv
    by_contra hplaced
    exact hnone ⟨v, hv, (stuck_iff_not_mem_placed hg (List.mem_range.1 hv)).2 hplaced⟩
  have hle := (List.subperm_of_subset List.nodup_range hsub).length_le
  rwa [List.length_range] at hle

/-- From a vertex that is stuck in the end the walk back closes up. -/
theorem closedWalk_of_stuck (hg : g.WellFormed) (hstuck : (g.progressAfter g.size).stuck v) :
    g.ClosedWalk (g.progressAfter g.size).stuck
      (g.walkBack (g.progressAfter g.size).stuck (List.range g.size) v []).1
      (g.walkBack (g.progressAfter g.size).stuck (List.range g.size) v []).2 := by
  apply closedWalk_walkBack hg
  · intro w hw
    exact (sound_progressAfter hg g.size).lt_of_stuck hw
  · intro w hw
    exact exists_stuck_predecessor hg hw
  · rw [List.append_nil]
  · intro w hw
    rwa [List.mem_singleton.1 hw]
  · exact List.isChain_singleton v

theorem sort_eq_error_iff {cycle : Cycle} :
    g.sort = .error cycle ↔ (g.progressAfter g.size).placed.length ≠ g.size
      ∧ g.findCycle (g.progressAfter g.size).stuck = cycle := by
  rw [sort]
  split
  case isTrue hlength => simp [hlength]
  case isFalse hlength => simp [hlength]

theorem liesIn_of_sort_eq_error (hg : g.WellFormed) {cycle : Cycle}
    (hsort : g.sort = .error cycle) : cycle.LiesIn g := by
  obtain ⟨hlength, rfl⟩ := sort_eq_error_iff.1 hsort
  obtain ⟨start, hstart⟩ := exists_stuck hg hlength
  exact findCycle_liesIn hstart (closedWalk_of_stuck hg (List.find?_some hstart))

end Graph

namespace Cycle.LiesIn

variable {g : Graph} {cycle : Cycle} {first : Nat}

theorem reach (hcycle : cycle.LiesIn g) (hfirst : cycle.vertices[0]? = some first) (i : Nat)
    {v : Nat} (hv : cycle.vertices[i]? = some v) : Relation.ReflTransGen g.Edge first v := by
  induction i generalizing v with
  | zero =>
    obtain rfl := Option.some.inj (hfirst.symm.trans hv)
    exact .refl
  | succ i ih =>
    have hi : i + 1 < cycle.vertices.length := (List.getElem?_eq_some_iff.1 hv).1
    obtain ⟨before, after, kind, hbefore, hafter, _, hkind⟩ := hcycle.edge i (by omega)
    rw [Nat.mod_eq_of_lt hi, hv] at hafter
    obtain rfl := Option.some.inj hafter
    exact (ih hbefore).tail (Graph.edge_of_kind? hkind)

/-- Along a cycle of a graph a vertex leads back to itself. -/
theorem exists_transGen (hcycle : cycle.LiesIn g) : ∃ v, Relation.TransGen g.Edge v v := by
  have hpos : 0 < cycle.vertices.length := List.length_pos_of_ne_nil hcycle.ne_nil
  obtain ⟨first, hfirst⟩ : ∃ first, cycle.vertices[0]? = some first :=
    ⟨_, List.getElem?_eq_getElem hpos⟩
  obtain ⟨last, after, kind, hlast, hafter, _, hkind⟩ :=
    hcycle.edge (cycle.vertices.length - 1) (by omega)
  rw [Nat.sub_add_cancel hpos, Nat.mod_self, hfirst] at hafter
  obtain rfl := Option.some.inj hafter
  exact ⟨first, .tail' (hcycle.reach hfirst _ hlast) (Graph.edge_of_kind? hkind)⟩

end Cycle.LiesIn

namespace Graph

/-- How a sort that fails comes by its cycle: it finds a stuck vertex to start from, no vertex on
the walk back lacks a stuck predecessor, and the walk closes before it is longer than there are
vertices. -/
structure Traced (g : Graph) (stuck : Nat → Bool) (start again : Nat) (walk : List Nat) : Prop
    extends g.ClosedWalk stuck again walk where
  find?_eq : (List.range g.size).find? stuck = some start
  walkBack_eq : g.walkBack stuck (List.range g.size) start [] = (again, walk)
  isSome_lowestBefore? : ∀ v ∈ walk, (g.lowestBefore? stuck v).isSome
  length_le : walk.length ≤ g.size

/-- When a sort fails, its answer is a cycle of the graph, and nothing on the way was made up. -/
theorem sort_error_is_cycle {requests : List Request} {g : Graph} {cycle : Cycle}
    (hbuild : build? requests = some g) (hsort : g.sort = .error cycle) :
    cycle.LiesIn g ∧
    ∃ start again walk, g.Traced (g.progressAfter g.size).stuck start again walk ∧
      cycle.vertices = walk.takeWhile (· ≠ again) ++ [again] := by
  have hg := WellFormed.of_build? hbuild
  refine ⟨liesIn_of_sort_eq_error hg hsort, ?_⟩
  obtain ⟨hlength, rfl⟩ := sort_eq_error_iff.1 hsort
  obtain ⟨start, hstart⟩ := exists_stuck hg hlength
  have hwalk := closedWalk_of_stuck hg (List.find?_some hstart)
  refine ⟨start, _, _, ⟨hwalk, hstart, rfl, ?_, ?_⟩, ?_⟩
  · intro v hv
    have hbefore := exists_stuck_predecessor hg (hwalk.stuck_of_mem v hv)
    obtain ⟨low, hlow, _⟩ := exists_lowestBefore? hg hbefore
    rw [hlow]
    rfl
  · exact length_le_of_nodup_of_lt hwalk.nodup hwalk.lt_size
  · rw [findCycle, hstart]
    rfl

/-- The walk starts below the loop, at a vertex that is not part of it. -/
theorem sort_error_below_loop :
    let requests : List Request := [.vertex "a", .vertex "b", .vertex "c", .edge 1 0 .dependency,
      .edge 1 2 .dependency, .edge 2 1 .parent]
    let g : Graph :=
      ⟨["a", "b", "c"], [[], [(0, .dependency), (2, .dependency)], [(1, .parent)]],
        [[1], [2], [1]]⟩
    let cycle : Cycle := ⟨[2, 1], [.parent, .dependency]⟩
    build? requests = some g ∧ g.sort = .error cycle ∧ cycle.LiesIn g ∧
      ∃ start again walk, g.Traced (g.progressAfter g.size).stuck start again walk ∧
        cycle.vertices = walk.takeWhile (· ≠ again) ++ [again] := by
  intro requests g cycle
  have hbuild : build? requests = some g := rfl
  have hsort : g.sort = .error cycle := by decide +kernel
  exact ⟨hbuild, hsort, sort_error_is_cycle hbuild hsort⟩

end Graph

end Rebuild
