import Mathlib.Data.List.Induction
import Rebuild.Proofs.Graph.Agreement

/-!
# What requests add up to

Of the requests that built it a graph keeps which edges were asked for, and of each edge whether a
parent edge was asked for at some time. When that was, how often and in what order is lost. So two
sequences of requests that ask for the same make graphs with the same edges, and these are sorted
alike, down to the cycle that is found.
-/

namespace Rebuild

namespace EdgeKind

theorem eq_dependency_iff {old : Option EdgeKind} :
    old = some .dependency ↔ old.isSome ∧ old ≠ some .parent := by
  rcases old with _ | (_ | _) <;> simp

theorem exists_iff {p : EdgeKind → Prop} : (∃ kind, p kind) ↔ p .dependency ∨ p .parent := by
  constructor
  · rintro ⟨_ | _, hkind⟩
    · exact Or.inl hkind
    · exact Or.inr hkind
  · rintro (hkind | hkind)
    · exact ⟨_, hkind⟩
    · exact ⟨_, hkind⟩

end EdgeKind

namespace Graph

variable {requests others : List Request} {request : Request} {g h next : Graph} {u v a b : Nat}
  {kind : EdgeKind}

/-! ### One request -/

theorem extend?_edge_eq_some_iff :
    g.extend? (.edge u v kind) = some next
      ↔ (u < g.size ∧ v < g.size) ∧ (g.addEdge u v kind).1 = next := by
  rw [extend?, addEdge?]
  split
  case isTrue hends => simp [hends]
  case isFalse hends => simp [hends]

theorem edge_extend? (hg : g.WellFormed) (hextend : g.extend? request = some next) :
    next.Edge a b ↔ (∃ kind, .edge a b kind = request) ∨ g.Edge a b := by
  cases request with
  | vertex label =>
    obtain rfl := Option.some.inj hextend
    simp [Edge, kind?_addVertex]
  | edge u v kind =>
    obtain ⟨hends, rfl⟩ := extend?_edge_eq_some_iff.1 hextend
    rw [edge_addEdge (hg.lt_length_leaving hends.1)]
    simp

/-- A parent edge was asked for now, or before. -/
theorem parent_extend? (hg : g.WellFormed) (hextend : g.extend? request = some next) :
    next.kind? a b = some .parent ↔ .edge a b .parent = request ∨ g.kind? a b = some .parent := by
  cases request with
  | vertex label =>
    obtain rfl := Option.some.inj hextend
    simp [kind?_addVertex]
  | edge u v kind =>
    obtain ⟨hends, rfl⟩ := extend?_edge_eq_some_iff.1 hextend
    rw [kind?_addEdge (hg.lt_length_leaving hends.1)]
    by_cases hpair : a = u ∧ b = v
    · obtain ⟨rfl, rfl⟩ := hpair
      rcases g.kind? a b with _ | (_ | _) <;> cases kind <;> simp [EdgeKind.merge]
    · rw [if_neg hpair, Request.edge.injEq]
      tauto

/-- An edge is new if there was none before. -/
theorem addEdge_isNew_iff : (g.addEdge u v kind).2 = true ↔ ¬ g.Edge u v := by
  unfold addEdge
  split
  case h_1 hold => simp [Edge, hold]
  case h_2 old hold => simp [Edge, hold]
  case h_3 old hold => simp [Edge, hold]

/-! ### All requests -/

theorem build?_append (requests others : List Request) :
    build? (requests ++ others) = (build? requests).bind fun g => others.foldlM extend? g := by
  rw [build?, List.foldlM_append]
  rfl

theorem build?_append_singleton_eq_some_iff :
    build? (requests ++ [request]) = some next
      ↔ ∃ g, build? requests = some g ∧ g.extend? request = some next := by
  rw [build?_append, Option.bind_eq_some_iff]
  simp

/-- What requests build, the first of them build a part of. -/
theorem exists_build?_of_append (hbuild : build? (requests ++ others) = some g) :
    ∃ part, build? requests = some part := by
  rw [build?_append, Option.bind_eq_some_iff] at hbuild
  obtain ⟨part, hpart, _⟩ := hbuild
  exact ⟨part, hpart⟩

/-- The edges are those that were asked for. -/
theorem edge_iff_requested (hbuild : build? requests = some g) :
    g.Edge a b ↔ ∃ kind, .edge a b kind ∈ requests := by
  induction requests using List.reverseRecOn generalizing g with
  | nil =>
    obtain rfl := Option.some.inj hbuild
    simp [Edge, kind?, edgesFrom, empty]
  | append_singleton requests request ih =>
    obtain ⟨before, hbefore, hextend⟩ := build?_append_singleton_eq_some_iff.1 hbuild
    rw [edge_extend? (.of_build? hbefore) hextend, ih hbefore]
    simp only [List.mem_append, List.mem_singleton, exists_or, or_comm]

/-- The parent edges are those that were asked for as such. -/
theorem parent_iff_requested (hbuild : build? requests = some g) :
    g.kind? a b = some .parent ↔ .edge a b .parent ∈ requests := by
  induction requests using List.reverseRecOn generalizing g with
  | nil =>
    obtain rfl := Option.some.inj hbuild
    simp [kind?, edgesFrom, empty]
  | append_singleton requests request ih =>
    obtain ⟨before, hbefore, hextend⟩ := build?_append_singleton_eq_some_iff.1 hbuild
    rw [parent_extend? (.of_build? hbefore) hextend, ih hbefore, List.mem_append,
      List.mem_singleton, or_comm]

/-- The edges that are no parent edges are those that were asked for, but never as such. -/
theorem dependency_iff_requested (hbuild : build? requests = some g) :
    g.kind? a b = some .dependency
      ↔ .edge a b .dependency ∈ requests ∧ .edge a b .parent ∉ requests := by
  have hedge : (g.kind? a b).isSome ↔ ∃ kind, .edge a b kind ∈ requests := edge_iff_requested hbuild
  rw [EdgeKind.eq_dependency_iff, hedge, ne_eq, parent_iff_requested hbuild, EdgeKind.exists_iff]
  tauto

theorem none_iff_requested (hbuild : build? requests = some g) :
    g.kind? a b = none ↔ ∀ kind, .edge a b kind ∉ requests := by
  rw [← Option.not_isSome_iff_eq_none, ← not_exists]
  exact not_congr (edge_iff_requested hbuild)

/-! ### Asking for the same -/

theorem agree_of_same_edges (hg : build? requests = some g) (hh : build? others = some h)
    (hsize : g.size = h.size)
    (hedges : ∀ a b kind, .edge a b kind ∈ requests ↔ .edge a b kind ∈ others) : Agree g h := by
  refine ⟨hsize, ?_⟩
  intro a b
  apply Option.ext
  intro kind
  cases kind with
  | dependency =>
    rw [dependency_iff_requested hg, dependency_iff_requested hh, hedges, hedges]
  | parent => rw [parent_iff_requested hg, parent_iff_requested hh, hedges]

/-- If the same edges of the same kinds were asked for between as many vertices, in whatever order
and however often, then the order is the same, or the cycle with its vertices and kinds. The rows of
the two graphs need not be the same: what leaves a vertex and what enters it stands there in the
order in which it was asked for. -/
theorem sort_of_same_edges (hg : build? requests = some g) (hh : build? others = some h)
    (hsize : g.size = h.size)
    (hedges : ∀ a b kind, .edge a b kind ∈ requests ↔ .edge a b kind ∈ others) :
    g.sort = h.sort :=
  (agree_of_same_edges hg hh hsize hedges).sort_eq (.of_build? hg) (.of_build? hh)

/-- Asked for in the other direction, with the edge that closes the cycle as a parent edge first: of
the two stuck vertices that the second one waits for, the walk takes the same, the one that stands
last in the row of the one graph and first in the row of the other. -/
theorem sort_of_same_loop :
    let vertices : List Request := [.vertex "a", .vertex "b", .vertex "c", .vertex "d"]
    let requests := vertices ++ [.edge 0 1 .dependency, .edge 3 1 .dependency,
      .edge 1 2 .dependency, .edge 2 3 .dependency, .edge 2 1 .dependency, .edge 2 1 .parent]
    let others := vertices ++ [.edge 2 1 .parent, .edge 2 3 .dependency, .edge 2 1 .dependency,
      .edge 2 3 .dependency, .edge 1 2 .dependency, .edge 3 1 .dependency, .edge 0 1 .dependency]
    ∃ g h, build? requests = some g ∧ build? others = some h ∧ g.size = h.size ∧
      (∀ a b kind, .edge a b kind ∈ requests ↔ .edge a b kind ∈ others) ∧
      g.leaving ≠ h.leaving ∧ g.predecessorsOf 1 = [0, 3, 2] ∧ h.predecessorsOf 1 = [2, 3, 0] ∧
      g.sort = .error ⟨[2, 1], [.parent, .dependency]⟩ ∧
      g.sort = h.sort := by
  intro vertices requests others
  let g : Graph := ⟨["a", "b", "c", "d"], [[(1, .dependency)], [(2, .dependency)],
    [(3, .dependency), (1, .parent)], [(1, .dependency)]], [[], [0, 3, 2], [1], [2]]⟩
  let h : Graph := ⟨["a", "b", "c", "d"], [[(1, .dependency)], [(2, .dependency)],
    [(1, .parent), (3, .dependency)], [(1, .dependency)]], [[], [2, 3, 0], [1], [2]]⟩
  have hg : build? requests = some g := rfl
  have hh : build? others = some h := rfl
  have hedges : ∀ a b kind, .edge a b kind ∈ requests ↔ .edge a b kind ∈ others := by
    intro a b kind
    simp only [requests, others, vertices, List.mem_append, List.mem_cons, List.not_mem_nil,
      or_false, reduceCtorEq, false_or]
    tauto
  have hcycle : g.sort = .error ⟨[2, 1], [.parent, .dependency]⟩ := by decide +kernel
  refine ⟨g, h, hg, hh, rfl, hedges, by simp [g, h], rfl, rfl, hcycle, ?_⟩
  exact sort_of_same_edges hg hh rfl hedges

end Graph

end Rebuild
