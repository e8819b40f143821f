import Mathlib.Data.List.Nodup
import Rebuild.Graph

/-!
# The edges of a graph

A graph is built by requests, one after the other: another vertex, or another edge between vertices
that exist. What is built so keeps two rows for each vertex, a row names vertices only, each at most
once, and the rows of what enters tell of the same edges as the rows of what leaves. Everything that
is proved about graphs rests on these facts and on what one more request does to `kind?`.
-/

namespace Rebuild

/-- The kind of an edge after one more request for it. Once a parent edge, it stays one. -/
def EdgeKind.merge : Option EdgeKind → EdgeKind → EdgeKind
  | some .parent, _ => .parent
  | _, kind => kind

namespace Graph

/-- A request to a graph that is being built. -/
inductive Request where
  | vertex (label : String)
  | edge (before after : Nat) (kind : EdgeKind)

/-- The graph after a request; none if it asks for an edge with an end that is no vertex. -/
def extend? (g : Graph) : Request → Option Graph
  | .vertex label => some (g.addVertex label)
  | .edge before after kind => (g.addEdge? before after kind).map (·.1)

/-- The graph that a sequence of requests builds from nothing. -/
def build? (requests : List Request) : Option Graph := requests.foldlM extend? empty

/-- There is an edge from the one vertex to the other. -/
def Edge (g : Graph) (before after : Nat) : Prop := (g.kind? before after).isSome

/-- A row of either sort for each vertex, in each row vertices, none of them twice, and the same
edges in the rows of both sorts. -/
structure WellFormed (g : Graph) : Prop where
  length_leaving : g.leaving.length = g.size
  length_entering : g.entering.length = g.size
  lt_of_successor : ∀ {before after}, after ∈ g.successorsOf before → after < g.size
  nodup_successors : ∀ before, (g.successorsOf before).Nodup
  mem_predecessorsOf : ∀ {before after}, before ∈ g.predecessorsOf after ↔ g.Edge before after
  nodup_predecessors : ∀ after, (g.predecessorsOf after).Nodup

variable {g : Graph} {u v x y : Nat} {kind : EdgeKind}

/-! ### Neighbours -/

theorem edge_iff_mem_successorsOf : g.Edge u v ↔ v ∈ g.successorsOf u := by
  rw [Edge, kind?, List.lookup_isSome_iff, successorsOf, List.mem_map]
  constructor
  · rintro ⟨edge, hmem, heq⟩
    exact ⟨edge, hmem, (beq_iff_eq.1 heq).symm⟩
  · rintro ⟨edge, hmem, heq⟩
    exact ⟨edge, hmem, beq_iff_eq.2 heq.symm⟩

theorem edge_of_kind? (h : g.kind? u v = some kind) : g.Edge u v := by
  rw [Edge, h]
  rfl

namespace WellFormed

theorem lt_of_edge_right (hg : g.WellFormed) (h : g.Edge u v) : v < g.size :=
  hg.lt_of_successor (edge_iff_mem_successorsOf.1 h)

theorem lt_of_edge_left (hg : g.WellFormed) (h : g.Edge u v) : u < g.size := by
  rw [← hg.length_leaving]
  by_contra hge
  rw [edge_iff_mem_successorsOf, successorsOf, edgesFrom, List.getD_eq_getElem?_getD,
    List.getElem?_eq_none (Nat.le_of_not_lt hge)] at h
  cases h

theorem lt_length_leaving (hg : g.WellFormed) (hu : u < g.size) : u < g.leaving.length := by
  rwa [hg.length_leaving]

theorem lt_length_entering (hg : g.WellFormed) (hv : v < g.size) : v < g.entering.length := by
  rwa [hg.length_entering]

end WellFormed

/-! ### Rows -/

theorem getD_append_nil {α : Type} (rows : List (List α)) :
    (rows ++ [[]]).getD x [] = rows.getD x [] := by
  simp only [List.getD_eq_getElem?_getD, List.getElem?_append]
  by_cases hx : x < rows.length
  · rw [if_pos hx]
  · rw [if_neg hx, List.getElem?_eq_none (Nat.le_of_not_lt hx)]
    cases x - rows.length <;> simp

theorem getD_modify {α : Type} {rows : List (List α)} (change : List α → List α)
    (hu : u < rows.length) :
    (rows.modify u change).getD x [] = if x = u then change (rows.getD u []) else rows.getD x [] := by
  simp only [List.getD_eq_getElem?_getD, List.getElem?_modify]
  by_cases hx : x = u
  · subst hx
    simp [hu]
  · simp [hx, Ne.symm hx]

/-! ### What a request changes -/

@[simp] theorem size_addVertex (label : String) : (g.addVertex label).size = g.size + 1 := by
  simp [size, addVertex]

@[simp] theorem size_addEdge : (g.addEdge u v kind).1.size = g.size := by
  unfold addEdge
  split <;> rfl

@[simp] theorem labels_addEdge : (g.addEdge u v kind).1.labels = g.labels := by
  unfold addEdge
  split <;> rfl

theorem edgesFrom_addVertex (label : String) : (g.addVertex label).edgesFrom x = g.edgesFrom x :=
  getD_append_nil g.leaving

theorem kind?_addVertex (label : String) : (g.addVertex label).kind? x y = g.kind? x y := by
  rw [kind?, edgesFrom_addVertex, kind?]

/-- The edges that leave a vertex, after a request for an edge to another one. -/
def record (v : Nat) (kind : EdgeKind) (edges : List (Nat × EdgeKind)) : List (Nat × EdgeKind) :=
  match edges.lookup v, kind with
  | none, _ => edges ++ [(v, kind)]
  | some _, .parent => promote v edges
  | some _, .dependency => edges

theorem edgesFrom_modify (change : List (Nat × EdgeKind) → List (Nat × EdgeKind))
    (hu : u < g.leaving.length) :
    edgesFrom { g with leaving := g.leaving.modify u change } x
      = if x = u then change (g.edgesFrom u) else g.edgesFrom x := getD_modify change hu

theorem edgesFrom_addEdge (hu : u < g.leaving.length) :
    (g.addEdge u v kind).1.edgesFrom x
      = if x = u then record v kind (g.edgesFrom u) else g.edgesFrom x := by
  have hkind : g.kind? u v = (g.edgesFrom u).lookup v := rfl
  unfold addEdge record
  rw [hkind]
  cases (g.edgesFrom u).lookup v with
  | none => exact edgesFrom_modify _ hu
  | some old =>
    cases kind with
    | parent => exact edgesFrom_modify _ hu
    | dependency =>
      by_cases hx : x = u
      · rw [if_pos hx, hx]
      · rw [if_neg hx]

theorem predecessorsOf_addVertex (label : String) :
    (g.addVertex label).predecessorsOf x = g.predecessorsOf x := getD_append_nil g.entering

/-- The predecessors of a vertex after a request for an edge. A new one comes last. -/
theorem predecessorsOf_addEdge (hv : v < g.entering.length) :
    (g.addEdge u v kind).1.predecessorsOf x
      = if x = v ∧ g.kind? u v = none then g.predecessorsOf v ++ [u] else g.predecessorsOf x := by
  unfold addEdge
  split
  case h_1 hold =>
    simp only [hold, and_true]
    exact getD_modify _ hv
  case h_2 old hold =>
    rw [if_neg (by simp [hold])]
    rfl
  case h_3 old hold => rw [if_neg (by simp [hold])]

theorem lookup_cons_eq_ite (edge : Nat × EdgeKind) (rest : List (Nat × EdgeKind)) :
    (edge :: rest).lookup y = if y = edge.1 then some edge.2 else rest.lookup y := by
  by_cases hy : y = edge.1
  · rw [if_pos hy, hy, List.lookup_cons_self]
  · rw [if_neg hy, List.lookup_cons, beq_eq_false_iff_ne.2 hy]

theorem lookup_promote (edges : List (Nat × EdgeKind)) :
    (promote v edges).lookup y
      = if y = v then (edges.lookup v).map fun _ => .parent else edges.lookup y := by
  induction edges with
  | nil => simp [promote]
  | cons edge rest ih =>
    have hcons : promote v (edge :: rest)
        = (if edge.1 = v then (v, .parent) else edge) :: promote v rest := rfl
    rw [hcons, lookup_cons_eq_ite, ih, lookup_cons_eq_ite, lookup_cons_eq_ite]
    by_cases htarget : edge.1 = v
    · by_cases hy : y = v
      · simp [htarget, hy]
      · simp [htarget, hy]
    · by_cases hy : y = v
      · simp [htarget, hy, Ne.symm htarget]
      · simp [htarget, hy]

theorem map_fst_promote (edges : List (Nat × EdgeKind)) :
    (promote v edges).map (·.1) = edges.map (·.1) := by
  rw [promote, List.map_map]
  apply List.map_congr_left
  intro edge _
  by_cases htarget : edge.1 = v
  · simp [htarget]
  · simp [htarget]

theorem lookup_record (edges : List (Nat × EdgeKind)) :
    (record v kind edges).lookup y
      = if y = v then some (EdgeKind.merge (edges.lookup v) kind) else edges.lookup y := by
  unfold record
  split
  case h_1 hold =>
    rw [List.lookup_append, lookup_cons_eq_ite, hold]
    by_cases hy : y = v
    · rw [if_pos hy, if_pos hy, hy, hold]
      rfl
    · rw [if_neg hy, if_neg hy]
      simp
  case h_2 old hold =>
    rw [lookup_promote, hold]
    cases old <;> rfl
  case h_3 old hold =>
    by_cases hy : y = v
    · rw [if_pos hy, hy, hold]
      cases old <;> rfl
    · rw [if_neg hy]

theorem nodup_record {edges : List (Nat × EdgeKind)} (hnodup : (edges.map (·.1)).Nodup) :
    ((record v kind edges).map (·.1)).Nodup := by
  unfold record
  split
  case h_1 hold =>
    have hfresh : v ∉ edges.map (·.1) := by
      intro hmem
      obtain ⟨edge, hedge, rfl⟩ := List.mem_map.1 hmem
      exact absurd (List.lookup_eq_none_iff.1 hold edge hedge) (by simp)
    rw [List.map_append, List.map_cons, List.map_nil, ← List.concat_eq_append]
    exact hnodup.concat hfresh
  case h_2 => rwa [map_fst_promote]
  case h_3 => exact hnodup

/-- A request for an edge decides the kind of that edge and of no other. -/
theorem kind?_addEdge (hu : u < g.leaving.length) :
    (g.addEdge u v kind).1.kind? x y
      = if x = u ∧ y = v then some (EdgeKind.merge (g.kind? u v) kind) else g.kind? x y := by
  rw [kind?, edgesFrom_addEdge hu]
  by_cases hx : x = u
  · rw [if_pos hx, lookup_record, hx]
    simp [kind?]
  · rw [if_neg hx, if_neg fun hxy => hx hxy.1]
    rfl

theorem edge_addEdge (hu : u < g.leaving.length) :
    (g.addEdge u v kind).1.Edge x y ↔ (x = u ∧ y = v) ∨ g.Edge x y := by
  rw [Edge, kind?_addEdge hu]
  by_cases hxy : x = u ∧ y = v
  · simp [hxy]
  · simp [hxy, Edge]

/-! ### What is built is well formed -/

namespace WellFormed

theorem empty : Graph.empty.WellFormed where
  length_leaving := rfl
  length_entering := rfl
  lt_of_successor h := by simp [successorsOf, edgesFrom, Graph.empty] at h
  nodup_successors before := by simp [successorsOf, edgesFrom, Graph.empty]
  mem_predecessorsOf := by simp [predecessorsOf, Edge, kind?, edgesFrom, Graph.empty]
  nodup_predecessors after := by simp [predecessorsOf, Graph.empty]

theorem addVertex (hg : g.WellFormed) (label : String) : (g.addVertex label).WellFormed where
  length_leaving := by
    rw [size_addVertex, ← hg.length_leaving]
    simp [Graph.addVertex]
  length_entering := by
    rw [size_addVertex, ← hg.length_entering]
    simp [Graph.addVertex]
  lt_of_successor h := by
    rw [successorsOf, edgesFrom_addVertex] at h
    rw [size_addVertex]
    exact Nat.lt_succ_of_lt (hg.lt_of_successor h)
  nodup_successors before := by
    rw [successorsOf, edgesFrom_addVertex]
    exact hg.nodup_successors before
  mem_predecessorsOf := by
    intro before after
    rw [predecessorsOf_addVertex, Edge, kind?_addVertex]
    exact hg.mem_predecessorsOf
  nodup_predecessors after := by
    rw [predecessorsOf_addVertex]
    exact hg.nodup_predecessors after

theorem addEdge (hg : g.WellFormed) (hu : u < g.size) (hv : v < g.size) :
    (g.addEdge u v kind).1.WellFormed where
  length_leaving := by
    rw [size_addEdge, ← hg.length_leaving]
    unfold Graph.addEdge
    split <;> simp
  length_entering := by
    rw [size_addEdge, ← hg.length_entering]
    unfold Graph.addEdge
    split <;> simp
  lt_of_successor h := by
    rw [← edge_iff_mem_successorsOf, edge_addEdge (hg.lt_length_leaving hu)] at h
    rw [size_addEdge]
    rcases h with ⟨_, rfl⟩ | hedge
    · exact hv
    · exact hg.lt_of_edge_right hedge
  nodup_successors before := by
    rw [successorsOf, edgesFrom_addEdge (hg.lt_length_leaving hu)]
    by_cases hbefore : before = u
    · rw [if_pos hbefore]
      exact nodup_record (hg.nodup_successors u)
    · rw [if_neg hbefore]
      exact hg.nodup_successors before
  mem_predecessorsOf := by
    intro before after
    rw [predecessorsOf_addEdge (hg.lt_length_entering hv), edge_addEdge (hg.lt_length_leaving hu)]
    split
    case isTrue hnew =>
      rw [List.mem_append, List.mem_singleton, hnew.1, hg.mem_predecessorsOf, and_iff_left rfl,
        or_comm]
    case isFalse hold =>
      rw [hg.mem_predecessorsOf]
      -- an edge that was there already is asked for
      have hedge : before = u ∧ after = v → g.Edge before after := by
        rintro ⟨rfl, rfl⟩
        rw [Edge, Option.isSome_iff_ne_none]
        exact fun hnone => hold ⟨rfl, hnone⟩
      exact ⟨Or.inr, fun hor => hor.elim hedge id⟩
  nodup_predecessors after := by
    rw [predecessorsOf_addEdge (hg.lt_length_entering hv)]
    split
    case isTrue hnew =>
      have hfresh : u ∉ g.predecessorsOf v := by
        rw [hg.mem_predecessorsOf, Edge, hnew.2]
        exact Bool.false_ne_true
      rw [← List.concat_eq_append]
      exact (hg.nodup_predecessors v).concat hfresh
    case isFalse => exact hg.nodup_predecessors after

theorem extend? (hg : g.WellFormed) {request : Request} {next : Graph}
    (hextend : g.extend? request = some next) : next.WellFormed := by
  cases request with
  | vertex label =>
    obtain rfl := Option.some.inj hextend
    exact hg.addVertex label
  | edge before after kind =>
    rw [Graph.extend?, addEdge?] at hextend
    split at hextend
    case isTrue hends =>
      obtain rfl := Option.some.inj hextend
      exact hg.addEdge hends.1 hends.2
    case isFalse => cases hextend

/-- Whatever is requested, what is built is well formed. -/
theorem of_build? {requests : List Request} (hbuild : build? requests = some g) :
    g.WellFormed := by
  have hrun : ∀ (rest : List Request) (start : Graph), start.WellFormed →
      rest.foldlM Graph.extend? start = some g → g.WellFormed := by
    intro rest
    induction rest with
    | nil =>
      intro start hstart hfold
      obtain rfl := Option.some.inj hfold
      exact hstart
    | cons request rest ih =>
      intro start hstart hfold
      rw [List.foldlM_cons] at hfold
      obtain ⟨next, hnext, hrest⟩ := Option.bind_eq_some_iff.1 hfold
      exact ih next (hstart.extend? hnext) hrest
  exact hrun requests Graph.empty empty hbuild

end WellFormed

end Graph

end Rebuild
