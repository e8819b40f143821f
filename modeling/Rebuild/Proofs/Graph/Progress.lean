import Mathlib.Data.List.Sort
import Mathlib.Data.List.Perm.Subperm
import Rebuild.Graph.Sort
import Rebuild.Proofs.Graph.Edges
import Rebuild.Proofs.Precedence

/-!
# The states of a sort

A sort keeps three things side by side: the vertices that are placed, a count for each vertex, and
the vertices that are ready. `Sound` says how they hang together. The count of a vertex is the
number of its predecessors that are not placed, the ready vertices are those that are not placed and
have nothing to wait for, and what is placed stands after all its predecessors.

A step places the first ready vertex. Its successors have it as a predecessor once, so each of them
is released once, and none of them was ready before. When as many steps were made as there are
vertices nothing is ready any more. What is not placed then waits for something that is not placed
either.
-/

namespace Rebuild.Graph

variable {g : Graph} {p : Progress} {u v w : Nat} {rest : List Nat}

/-- The predecessors of a vertex that are not placed. -/
def unplaced (g : Graph) (placed : List Nat) (v : Nat) : List Nat :=
  (g.predecessorsOf v).filter (· ∉ placed)

theorem mem_unplaced (hg : g.WellFormed) {placed : List Nat} :
    u ∈ g.unplaced placed v ↔ g.Edge u v ∧ u ∉ placed := by
  rw [unplaced, List.mem_filter, hg.mem_predecessorsOf, decide_eq_true_eq]

/-- Placing a vertex takes it from the predecessors that are not placed, and nothing else. -/
theorem length_unplaced_snoc (hg : g.WellFormed) {placed : List Nat} (hv : v ∉ placed) :
    (g.unplaced (placed ++ [v]) w).length
      = if w ∈ g.successorsOf v then (g.unplaced placed w).length - 1
        else (g.unplaced placed w).length := by
  have hnodup : (g.unplaced placed w).Nodup := (hg.nodup_predecessors w).filter _
  have herase : g.unplaced (placed ++ [v]) w = (g.unplaced placed w).erase v := by
    rw [hnodup.erase_eq_filter, unplaced, unplaced, List.filter_filter]
    apply List.filter_congr
    intro x _
    by_cases hx : x = v
    · simp [hx]
    · simp [hx]
  have hmem : v ∈ g.unplaced placed w ↔ w ∈ g.successorsOf v := by
    rw [mem_unplaced hg, edge_iff_mem_successorsOf, and_iff_left hv]
  rw [herase]
  split
  case isTrue hedge => exact List.length_erase_of_mem (hmem.2 hedge)
  case isFalse hedge => rw [List.erase_of_not_mem fun hv => hedge (hmem.1 hv)]

/-! ### Numbers below a bound, and ascending numbers -/

theorem length_le_of_nodup_of_lt {xs : List Nat} {n : Nat} (hnodup : xs.Nodup)
    (hlt : ∀ v ∈ xs, v < n) : xs.length ≤ n := by
  have hsub : xs ⊆ List.range n := fun v hv => List.mem_range.2 (hlt v hv)
  have hle := (List.subperm_of_subset hnodup hsub).length_le
  rwa [List.length_range] at hle

theorem insertAscending_eq_orderedInsert (v : Nat) (xs : List Nat) :
    insertAscending v xs = xs.orderedInsert (· ≤ ·) v := by
  induction xs with
  | nil => rfl
  | cons first rest ih => rw [insertAscending, ih, List.orderedInsert_cons]

theorem mem_insertAscending {xs : List Nat} : u ∈ insertAscending v xs ↔ u = v ∨ u ∈ xs := by
  rw [insertAscending_eq_orderedInsert, List.mem_orderedInsert]

theorem pairwise_insertAscending {xs : List Nat} (hxs : xs.Pairwise (· < ·)) (hv : v ∉ xs) :
    (insertAscending v xs).Pairwise (· < ·) := by
  have hperm : (insertAscending v xs).Perm (v :: xs) := by
    rw [insertAscending_eq_orderedInsert]
    exact List.perm_orderedInsert _ v xs
  have hnodup : (insertAscending v xs).Nodup :=
    hperm.nodup_iff.2 (List.nodup_cons.2 ⟨hv, hxs.imp Nat.ne_of_lt⟩)
  have hle : (insertAscending v xs).Pairwise (· ≤ ·) := by
    rw [insertAscending_eq_orderedInsert]
    exact (hxs.imp Nat.le_of_lt).orderedInsert v xs
  exact (hle.and hnodup).imp fun h => Nat.lt_of_le_of_ne h.1 h.2

/-! ### Releasing the successors of a vertex -/

namespace Progress

theorem waiting_release :
    (p.release u).waiting.getD v 0
      = if v = u then p.waiting.getD v 0 - 1 else p.waiting.getD v 0 := by
  simp only [release, List.getD_eq_getElem?_getD, List.getElem?_set]
  by_cases hv : v = u
  · subst hv
    by_cases hlt : v < p.waiting.length
    · simp [hlt]
    · simp [hlt]
  · simp [hv, Ne.symm hv]

theorem mem_ready_release :
    v ∈ (p.release u).ready ↔ v ∈ p.ready ∨ v = u ∧ p.waiting.getD v 0 - 1 = 0 := by
  simp only [release]
  split
  case isTrue hzero =>
    rw [mem_insertAscending, or_comm]
    constructor
    · rintro (hmem | rfl)
      · exact Or.inl hmem
      · exact Or.inr ⟨rfl, hzero⟩
    · rintro (hmem | ⟨hv, _⟩)
      · exact Or.inl hmem
      · exact Or.inr hv
  case isFalse hpos =>
    constructor
    · exact Or.inl
    · rintro (hmem | ⟨rfl, hzero⟩)
      · exact hmem
      · exact absurd hzero hpos

theorem placed_foldl_release (vs : List Nat) (p : Progress) :
    (vs.foldl release p).placed = p.placed := by
  induction vs generalizing p with
  | nil => rfl
  | cons u rest ih => exact ih (p.release u)

theorem length_waiting_foldl_release (vs : List Nat) (p : Progress) :
    (vs.foldl release p).waiting.length = p.waiting.length := by
  induction vs generalizing p with
  | nil => rfl
  | cons u rest ih =>
    rw [List.foldl_cons, ih]
    exact List.length_set

theorem waiting_foldl_release {vs : List Nat} (hvs : vs.Nodup) (p : Progress) :
    (vs.foldl release p).waiting.getD v 0
      = if v ∈ vs then p.waiting.getD v 0 - 1 else p.waiting.getD v 0 := by
  induction vs generalizing p with
  | nil => rfl
  | cons u rest ih =>
    obtain ⟨hu, hrest⟩ := List.nodup_cons.1 hvs
    rw [List.foldl_cons, ih hrest, waiting_release]
    by_cases hv : v = u
    · subst hv
      simp [hu]
    · simp [hv]

theorem mem_ready_foldl_release {vs : List Nat} (hvs : vs.Nodup) (p : Progress) :
    v ∈ (vs.foldl release p).ready ↔ v ∈ p.ready ∨ v ∈ vs ∧ p.waiting.getD v 0 - 1 = 0 := by
  induction vs generalizing p with
  | nil => simp
  | cons u rest ih =>
    obtain ⟨hu, hrest⟩ := List.nodup_cons.1 hvs
    rw [List.foldl_cons, ih hrest, mem_ready_release, waiting_release, List.mem_cons]
    by_cases hv : v = u
    · subst hv
      simp [hu]
    · simp [hv]

theorem pairwise_ready_foldl_release {vs : List Nat} (hvs : vs.Nodup) {p : Progress}
    (hready : p.ready.Pairwise (· < ·)) (hfresh : ∀ u ∈ vs, u ∉ p.ready) :
    (vs.foldl release p).ready.Pairwise (· < ·) := by
  induction vs generalizing p with
  | nil => exact hready
  | cons u rest ih =>
    obtain ⟨hu, hrest⟩ := List.nodup_cons.1 hvs
    rw [List.foldl_cons]
    apply ih hrest
    · simp only [release]
      split
      · exact pairwise_insertAscending hready (hfresh u List.mem_cons_self)
      · exact hready
    · intro w hw
      rw [mem_ready_release]
      rintro (hmem | ⟨rfl, _⟩)
      · exact hfresh w (List.mem_cons_of_mem u hw) hmem
      · exact hu hw

end Progress

/-! ### What holds in every state -/

/-- How the three parts of a state of a sort hang together. -/
structure Sound (g : Graph) (p : Progress) : Prop where
  length_waiting : p.waiting.length = g.size
  waiting_eq : ∀ v < g.size, p.waiting.getD v 0 = (g.unplaced p.placed v).length
  ready_ascending : p.ready.Pairwise (· < ·)
  mem_ready : ∀ v, v ∈ p.ready ↔ v < g.size ∧ v ∉ p.placed ∧ p.waiting.getD v 0 = 0
  lt_of_placed : ∀ v ∈ p.placed, v < g.size
  nodup_placed : p.placed.Nodup
  forward : ∀ u v, g.Edge u v → v ∈ p.placed → StandsBefore p.placed u v

namespace Sound

theorem waiting_pos (hp : g.Sound p) (hg : g.WellFormed) (hedge : g.Edge u v)
    (hu : u ∉ p.placed) : 0 < p.waiting.getD v 0 := by
  rw [hp.waiting_eq v (hg.lt_of_edge_right hedge)]
  exact List.length_pos_of_mem ((mem_unplaced hg).2 ⟨hedge, hu⟩)

/-- All predecessors of a vertex that is ready are placed. -/
theorem mem_placed_of_ready (hp : g.Sound p) (hg : g.WellFormed) (hv : v ∈ p.ready)
    (hedge : g.Edge u v) : u ∈ p.placed := by
  by_contra hu
  have hpos := hp.waiting_pos hg hedge hu
  have hzero := ((hp.mem_ready v).1 hv).2.2
  omega

theorem exists_unplaced_of_waiting_pos (hp : g.Sound p) (hg : g.WellFormed) (hv : v < g.size)
    (hpos : 0 < p.waiting.getD v 0) : ∃ u, g.Edge u v ∧ u ∉ p.placed := by
  rw [hp.waiting_eq v hv] at hpos
  obtain ⟨u, hu⟩ := List.exists_mem_of_length_pos hpos
  exact ⟨u, (mem_unplaced hg).1 hu⟩

end Sound

theorem sound_begin (g : Graph) : g.Sound g.begin := by
  have hwaiting : ∀ v < g.size, g.begin.waiting.getD v 0 = (g.unplaced [] v).length := by
    intro v hv
    have hall : g.unplaced [] v = g.predecessorsOf v := by simp [unplaced]
    rw [hall]
    simp [begin, hv]
  refine ⟨by simp [begin], hwaiting, ?_, ?_, ?_, List.nodup_nil, ?_⟩
  · exact List.pairwise_lt_range.filter _
  · intro v
    simp [begin]
  · intro v hv
    cases hv
  · intro u v _ hv
    cases hv

theorem step_of_ready_nil (hready : p.ready = []) : g.step p = p := by
  rw [step, hready]

theorem step_of_ready (hready : p.ready = v :: rest) :
    g.step p = (g.successorsOf v).foldl Progress.release
      { p with ready := rest, placed := p.placed ++ [v] } := by
  rw [step, hready]

theorem placed_step (hready : p.ready = v :: rest) : (g.step p).placed = p.placed ++ [v] := by
  rw [step_of_ready hready, Progress.placed_foldl_release]

theorem waiting_step (hg : g.WellFormed) (hready : p.ready = v :: rest) :
    (g.step p).waiting.getD w 0
      = if w ∈ g.successorsOf v then p.waiting.getD w 0 - 1 else p.waiting.getD w 0 := by
  rw [step_of_ready hready, Progress.waiting_foldl_release (hg.nodup_successors v)]

namespace Sound

theorem of_ready_cons (hp : g.Sound p) (hready : p.ready = v :: rest) :
    v < g.size ∧ v ∉ p.placed ∧ p.waiting.getD v 0 = 0 :=
  (hp.mem_ready v).1 (hready ▸ List.mem_cons_self)

/-- The ready vertex that is taken is the lowest one. -/
theorem lt_of_ready_cons (hp : g.Sound p) (hready : p.ready = v :: rest) :
    (∀ w ∈ rest, v < w) ∧ rest.Pairwise (· < ·) := by
  have hascending := hp.ready_ascending
  rw [hready] at hascending
  exact List.pairwise_cons.1 hascending

theorem successor_not_mem_ready (hp : g.Sound p) (hg : g.WellFormed) (hready : p.ready = v :: rest)
    (hw : w ∈ g.successorsOf v) : w ∉ p.ready := by
  intro hmem
  have hpos := hp.waiting_pos hg (edge_iff_mem_successorsOf.2 hw) (hp.of_ready_cons hready).2.1
  have hzero := ((hp.mem_ready w).1 hmem).2.2
  omega

theorem mem_ready_step (hp : g.Sound p) (hg : g.WellFormed) (hready : p.ready = v :: rest) :
    w ∈ (g.step p).ready
      ↔ w < g.size ∧ w ∉ (g.step p).placed ∧ (g.step p).waiting.getD w 0 = 0 := by
  obtain ⟨hvlt, hv, hvzero⟩ := hp.of_ready_cons hready
  have hvrest : v ∉ rest := fun hmem =>
    Nat.lt_irrefl v ((hp.lt_of_ready_cons hready).1 v hmem)
  have hmem : w ∈ (g.step p).ready
      ↔ w ∈ rest ∨ w ∈ g.successorsOf v ∧ p.waiting.getD w 0 - 1 = 0 := by
    rw [step_of_ready hready, Progress.mem_ready_foldl_release (hg.nodup_successors v)]
  have hrest : w ∈ rest ↔ w ≠ v ∧ w ∈ p.ready := by
    rw [hready, List.mem_cons]
    constructor
    · intro hwrest
      exact ⟨fun heq => hvrest (heq ▸ hwrest), Or.inr hwrest⟩
    · rintro ⟨hne, heq | hwrest⟩
      · exact absurd heq hne
      · exact hwrest
  rw [hmem, hrest, hp.mem_ready w, placed_step hready, waiting_step hg hready, List.mem_append,
    List.mem_singleton]
  -- A successor waited for the placed vertex at least; everything else keeps its count.
  by_cases hw : w ∈ g.successorsOf v
  · have hedge := edge_iff_mem_successorsOf.2 hw
    have hpos := hp.waiting_pos hg hedge hv
    have hplaced : w ∉ p.placed := fun hwplaced => hv (hp.forward v w hedge hwplaced).mem_left
    have hne : w ≠ v := by
      rintro rfl
      omega
    have hlt := hg.lt_of_edge_right hedge
    rw [if_pos hw]
    constructor
    · rintro (⟨_, _, _, hzero⟩ | ⟨_, hzero⟩)
      · omega
      · exact ⟨hlt, not_or.2 ⟨hplaced, hne⟩, hzero⟩
    · rintro ⟨_, _, hzero⟩
      exact Or.inr ⟨hw, hzero⟩
  · rw [if_neg hw]
    constructor
    · rintro (⟨hne, hlt, hplaced, hzero⟩ | ⟨hwsucc, _⟩)
      · exact ⟨hlt, not_or.2 ⟨hplaced, hne⟩, hzero⟩
      · exact absurd hwsucc hw
    · rintro ⟨hlt, hplaced, hzero⟩
      exact Or.inl ⟨fun heq => hplaced (Or.inr heq), hlt, fun hmem => hplaced (Or.inl hmem), hzero⟩

/-- One step keeps the parts of a state together. -/
theorem step (hp : g.Sound p) (hg : g.WellFormed) : g.Sound (g.step p) := by
  cases hready : p.ready with
  | nil => rwa [step_of_ready_nil hready]
  | cons v rest =>
    obtain ⟨hvlt, hv, _⟩ := hp.of_ready_cons hready
    refine ⟨?_, ?_, ?_, fun w => hp.mem_ready_step hg hready, ?_, ?_, ?_⟩
    · rw [step_of_ready hready, Progress.length_waiting_foldl_release]
      exact hp.length_waiting
    · intro w hw
      rw [waiting_step hg hready, placed_step hready, length_unplaced_snoc hg hv, hp.waiting_eq w hw]
    · rw [step_of_ready hready]
      apply Progress.pairwise_ready_foldl_release (hg.nodup_successors v)
      · exact (hp.lt_of_ready_cons hready).2
      · intro w hw hmem
        exact hp.successor_not_mem_ready hg hready hw (hready ▸ List.mem_cons_of_mem v hmem)
    · intro w hw
      rw [placed_step hready, List.mem_append, List.mem_singleton] at hw
      rcases hw with hw | rfl
      · exact hp.lt_of_placed w hw
      · exact hvlt
    · rw [placed_step hready, ← List.concat_eq_append]
      exact hp.nodup_placed.concat hv
    · intro u w hedge hw
      rw [placed_step hready] at hw ⊢
      rcases List.mem_append.1 hw with hw | hw
      · exact (hp.forward u w hedge hw).append [v]
      · obtain rfl := List.mem_singleton.1 hw
        exact StandsBefore.snoc
          (hp.mem_placed_of_ready hg (hready ▸ List.mem_cons_self) hedge)

end Sound

/-- Every state that a sort goes through is sound. -/
theorem sound_progressAfter (hg : g.WellFormed) (n : Nat) : g.Sound (g.progressAfter n) := by
  induction n with
  | zero => exact sound_begin g
  | succ n ih => exact ih.step hg

/-! ### The last state -/

theorem length_placed_progressAfter (g : Graph) (n : Nat) :
    (g.progressAfter n).placed.length = n ∨ (g.progressAfter n).ready = [] := by
  induction n with
  | zero => exact Or.inl rfl
  | succ n ih =>
    rw [progressAfter]
    cases hready : (g.progressAfter n).ready with
    | nil => exact Or.inr (by rw [step_of_ready_nil hready, hready])
    | cons v rest =>
      rw [hready] at ih
      rw [placed_step hready, List.length_append, List.length_singleton]
      exact Or.inl (by simpa using ih)

namespace Sound

theorem placed_perm (hp : g.Sound p) (hlength : p.placed.length = g.size) :
    p.placed.Perm (List.range g.size) := by
  apply (List.subperm_of_subset hp.nodup_placed _).perm_of_length_le
  · rw [List.length_range, hlength]
  · exact fun v hv => List.mem_range.2 (hp.lt_of_placed v hv)

end Sound

/-- After as many steps as there are vertices there is nothing left to place. -/
theorem ready_progressAfter_size (hg : g.WellFormed) : (g.progressAfter g.size).ready = [] := by
  rcases length_placed_progressAfter g g.size with hlength | hready
  · have hp := sound_progressAfter hg g.size
    rw [List.eq_nil_iff_forall_not_mem]
    intro v hv
    obtain ⟨hlt, hplaced, _⟩ := (hp.mem_ready v).1 hv
    exact hplaced ((hp.placed_perm hlength).mem_iff.2 (List.mem_range.2 hlt))
  · exact hready

theorem Sound.lt_of_stuck (hp : g.Sound p) (hstuck : p.stuck v) : v < g.size := by
  by_contra hge
  rw [Progress.stuck, decide_eq_true_eq, List.getD_eq_getElem?_getD,
    List.getElem?_eq_none (by rw [hp.length_waiting]; omega)] at hstuck
  exact absurd hstuck (by simp)

/-- Where nothing is ready, what waits is what is not placed. -/
theorem Sound.waiting_pos_iff (hp : g.Sound p) (hg : g.WellFormed) (hready : p.ready = []) (hv : v < g.size) :
    0 < p.waiting.getD v 0 ↔ v ∉ p.placed := by
  constructor
  · intro hpos hplaced
    obtain ⟨u, hedge, hu⟩ := hp.exists_unplaced_of_waiting_pos hg hv hpos
    exact hu (hp.forward u v hedge hplaced).mem_left
  · intro hplaced
    by_contra hzero
    have hmem := (hp.mem_ready v).2 ⟨hv, hplaced, Nat.eq_zero_of_not_pos hzero⟩
    rw [hready] at hmem
    cases hmem

/-- In the end the stuck vertices are those that are not placed. -/
theorem stuck_iff_not_mem_placed (hg : g.WellFormed) (hv : v < g.size) :
    (g.progressAfter g.size).stuck v ↔ v ∉ (g.progressAfter g.size).placed := by
  rw [Progress.stuck, decide_eq_true_eq]
  exact (sound_progressAfter hg g.size).waiting_pos_iff hg (ready_progressAfter_size hg) hv

/-- In the end a stuck vertex has a stuck predecessor. -/
theorem exists_stuck_predecessor (hg : g.WellFormed) (hstuck : (g.progressAfter g.size).stuck v) :
    ∃ u, g.Edge u v ∧ (g.progressAfter g.size).stuck u := by
  have hp := sound_progressAfter hg g.size
  have hpos : 0 < (g.progressAfter g.size).waiting.getD v 0 := of_decide_eq_true hstuck
  obtain ⟨u, hedge, hu⟩ := hp.exists_unplaced_of_waiting_pos hg (hp.lt_of_stuck hstuck) hpos
  exact ⟨u, hedge, (stuck_iff_not_mem_placed hg (hg.lt_of_edge_left hedge)).2 hu⟩

end Rebuild.Graph
