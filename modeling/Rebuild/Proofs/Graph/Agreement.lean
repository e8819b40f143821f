import Mathlib.Data.List.GetD
import Rebuild.Proofs.Graph.Progress

/-!
# Graphs with the same edges

A graph keeps its edges in the order in which they were asked for, in the rows of what leaves a
vertex and in those of what enters it, so two graphs with the same edges may keep them in different
rows. A sort reads both, and its answer does not show it. Of a row of predecessors it counts those
that are not placed, and on the walk back it takes the lowest of those that are stuck; neither
changes when the row is permuted. In every state what is placed decides what each vertex waits for
and what is ready, and the lowest ready vertex is placed next. So two graphs with the same vertices
and the same edges go through the same states, and where they get stuck the walks back are the same.
-/

namespace Rebuild.Graph

variable {g h : Graph} {p q : Progress} {u v : Nat}

/-- The same number of vertices, and the same edges of the same kinds between them. -/
structure Agree (g h : Graph) : Prop where
  size_eq : g.size = h.size
  kind?_eq : ∀ u v, g.kind? u v = h.kind? u v

namespace Agree

theorem edge_iff (hagree : Agree g h) : g.Edge u v ↔ h.Edge u v := by
  rw [Edge, Edge, hagree.kind?_eq]

/-- The rows name the same vertices, not in the same sequence. -/
theorem predecessorsOf_perm (hagree : Agree g h) (hg : g.WellFormed) (hh : h.WellFormed) (v : Nat) :
    (g.predecessorsOf v).Perm (h.predecessorsOf v) := by
  rw [List.perm_ext_iff_of_nodup (hg.nodup_predecessors v) (hh.nodup_predecessors v)]
  intro u
  rw [hg.mem_predecessorsOf, hh.mem_predecessorsOf, hagree.edge_iff]

theorem length_unplaced_eq (hagree : Agree g h) (hg : g.WellFormed) (hh : h.WellFormed)
    (placed : List Nat) (v : Nat) : (g.unplaced placed v).length = (h.unplaced placed v).length :=
  ((hagree.predecessorsOf_perm hg hh v).filter _).length_eq

/-! ### The same states -/

theorem waiting_eq (hagree : Agree g h) (hg : g.WellFormed) (hh : h.WellFormed)
    (hp : g.Sound p) (hq : h.Sound q) (hplaced : p.placed = q.placed) : p.waiting = q.waiting := by
  apply List.ext_getElem
  · rw [hp.length_waiting, hq.length_waiting, hagree.size_eq]
  · intro v hv hv'
    have hpv := hp.waiting_eq v (hp.length_waiting ▸ hv)
    have hqv := hq.waiting_eq v (hq.length_waiting ▸ hv')
    rw [List.getD_eq_getElem _ _ hv, hplaced, hagree.length_unplaced_eq hg hh] at hpv
    rw [List.getD_eq_getElem _ _ hv'] at hqv
    rw [hpv, hqv]

/-- What is placed decides the rest of a state. -/
theorem progress_eq (hagree : Agree g h) (hg : g.WellFormed) (hh : h.WellFormed)
    (hp : g.Sound p) (hq : h.Sound q) (hplaced : p.placed = q.placed) : p = q := by
  have hwaiting := hagree.waiting_eq hg hh hp hq hplaced
  have hready : p.ready = q.ready := by
    apply hp.ready_ascending.eq_of_mem_iff hq.ready_ascending
    intro v
    rw [hp.mem_ready, hq.mem_ready, hplaced, hwaiting, hagree.size_eq]
  cases p
  cases q
  rw [Progress.mk.injEq]
  exact ⟨hwaiting, hready, hplaced⟩

theorem placed_step_eq (p : Progress) : (g.step p).placed = (h.step p).placed := by
  cases hready : p.ready with
  | nil => rw [step_of_ready_nil hready, step_of_ready_nil hready]
  | cons v rest => rw [placed_step hready, placed_step hready]

theorem progressAfter_eq (hagree : Agree g h) (hg : g.WellFormed) (hh : h.WellFormed) (n : Nat) :
    g.progressAfter n = h.progressAfter n := by
  induction n with
  | zero => exact hagree.progress_eq hg hh (sound_begin g) (sound_begin h) rfl
  | succ n ih =>
    -- a step places the lowest ready vertex in either graph, and what is placed decides the rest
    apply hagree.progress_eq hg hh (sound_progressAfter hg (n + 1)) (sound_progressAfter hh (n + 1))
    rw [progressAfter, progressAfter, ih]
    exact placed_step_eq _

/-! ### The same cycle -/

/-- Of two rows that name the same vertices the lowest stuck one is the same, wherever it stands. -/
theorem lowestBefore_eq (hagree : Agree g h) (hg : g.WellFormed) (hh : h.WellFormed)
    (stuck : Nat → Bool) (v : Nat) : g.lowestBefore stuck v = h.lowestBefore stuck v := by
  have hperm := (hagree.predecessorsOf_perm hg hh v).filter stuck
  rw [lowestBefore, lowestBefore]
  congr 1
  apply Option.ext
  intro low
  simp only [List.min?_eq_some_iff, hperm.mem_iff]

theorem walkBack_eq (hagree : Agree g h) (hg : g.WellFormed) (hh : h.WellFormed)
    (stuck : Nat → Bool) (unvisited : List Nat) (v : Nat) (walk : List Nat) :
    g.walkBack stuck unvisited v walk = h.walkBack stuck unvisited v walk := by
  fun_induction walkBack g stuck unvisited v walk with
  | case1 unvisited v walk hv ih =>
    rw [ih, hagree.lowestBefore_eq hg hh]
    conv_rhs => rw [walkBack, dif_pos hv]
  | case2 unvisited v walk hv => rw [walkBack, dif_neg hv]

theorem findCycle_eq (hagree : Agree g h) (hg : g.WellFormed) (hh : h.WellFormed)
    (stuck : Nat → Bool) : g.findCycle stuck = h.findCycle stuck := by
  simp only [findCycle, hagree.size_eq, hagree.walkBack_eq hg hh, hagree.kind?_eq]

/-- Graphs with the same edges have the same order, or the same cycle. -/
theorem sort_eq (hagree : Agree g h) (hg : g.WellFormed) (hh : h.WellFormed) : g.sort = h.sort := by
  simp only [sort, hagree.size_eq, hagree.progressAfter_eq hg hh, hagree.findCycle_eq hg hh]

end Agree

end Rebuild.Graph
