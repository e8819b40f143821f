import Rebuild.Proofs.Graph.Requests

/-!
# Graphs in tables

A graph keeps the kind of an edge in the row that the edge leaves from, and looks it up there. For
large graphs one keeps the kinds at hand, in a table of their own beside those for labels, successors
and predecessors, and then a request has to change every table that it concerns. What a request does
to the tables is compared here with what it does to the graph. So after any requests the tables show
the graph, row by row and in the same sequence, and they are in step with each other because it is
well formed.
-/

namespace Rebuild.Graph

/-- A graph in tables: for each vertex its label, the vertices after it and the vertices before it,
both in the order in which they were asked for, and for each pair of vertices the kind of its edge.
-/
structure Tables where
  labels : List String
  successors : List (List Nat)
  predecessors : List (List Nat)
  kinds : Nat → Nat → Option EdgeKind

namespace Tables

/-- The tables without vertices. -/
def empty : Tables := ⟨[], [], [], fun _ _ => none⟩

/-- The vertices that come after a vertex. -/
def successorsOf (t : Tables) (v : Nat) : List Nat := t.successors.getD v []

/-- The vertices that come before a vertex. -/
def predecessorsOf (t : Tables) (v : Nat) : List Nat := t.predecessors.getD v []

/-- The tables with one more vertex. -/
def addVertex (t : Tables) (label : String) : Tables :=
  { t with
    labels := t.labels ++ [label]
    successors := t.successors ++ [[]]
    predecessors := t.predecessors ++ [[]] }

/-- The tables with another kind for a pair of vertices. -/
def setKind (t : Tables) (before after : Nat) (kind : EdgeKind) : Tables :=
  { t with kinds := fun a b => if a = before ∧ b = after then some kind else t.kinds a b }

/-- The tables with an edge, and whether the edge is new. -/
def addEdge (t : Tables) (before after : Nat) (kind : EdgeKind) : Tables × Bool :=
  match t.kinds before after, kind with
  | none, _ =>
    ({ t.setKind before after kind with
        successors := t.successors.modify before (· ++ [after])
        predecessors := t.predecessors.modify after (· ++ [before]) }, true)
  | some _, .parent => (t.setKind before after .parent, false)
  | some _, .dependency => (t, false)

/-- The tables after a request; none if it asks for an edge with an end that is no vertex. -/
def extend? (t : Tables) : Request → Option Tables
  | .vertex label => some (t.addVertex label)
  | .edge before after kind =>
    if before < t.labels.length ∧ after < t.labels.length then some (t.addEdge before after kind).1
    else none

/-- The tables that a sequence of requests builds from nothing. -/
def build? (requests : List Request) : Option Tables := requests.foldlM extend? empty

/-- There is a row for each vertex, and the tables list the same edges, between vertices and each of
them once. -/
structure InStep (t : Tables) : Prop where
  length_successors : t.successors.length = t.labels.length
  length_predecessors : t.predecessors.length = t.labels.length
  lt_of_kind : ∀ a b, (t.kinds a b).isSome → a < t.labels.length ∧ b < t.labels.length
  mem_successorsOf_iff : ∀ a b, b ∈ t.successorsOf a ↔ (t.kinds a b).isSome
  mem_predecessorsOf_iff : ∀ a b, a ∈ t.predecessorsOf b ↔ (t.kinds a b).isSome
  nodup_successorsOf : ∀ a, (t.successorsOf a).Nodup
  nodup_predecessorsOf : ∀ b, (t.predecessorsOf b).Nodup

/-- The tables say of vertices and edges what the graph says, in the sequence in which it does. -/
structure Shows (t : Tables) (g : Graph) : Prop where
  labels_eq : t.labels = g.labels
  length_successors : t.successors.length = g.size
  length_predecessors : t.predecessors.length = g.size
  successorsOf_eq : ∀ v, t.successorsOf v = g.successorsOf v
  predecessorsOf_eq : ∀ v, t.predecessorsOf v = g.predecessorsOf v
  kinds_eq : ∀ a b, t.kinds a b = g.kind? a b

/-- Of all requests for an edge the tables keep whether there was one, and whether one asked for a
parent edge. -/
structure Records (t : Tables) (requests : List Request) : Prop where
  parent_iff : ∀ a b, t.kinds a b = some .parent ↔ .edge a b .parent ∈ requests
  dependency_iff : ∀ a b, t.kinds a b = some .dependency
    ↔ .edge a b .dependency ∈ requests ∧ .edge a b .parent ∉ requests
  none_iff : ∀ a b, t.kinds a b = none ↔ ∀ kind, .edge a b kind ∉ requests

end Tables

variable {t : Tables} {g : Graph} {requests : List Request} {request : Request}
  {u v x a b : Nat} {kind : EdgeKind}

/-! ### Rows and neighbours -/

theorem length_modify_if {α : Type} {rows : List (List α)} {change : List α → List α} {c : Prop}
    [Decidable c] : (if c then rows.modify u change else rows).length = rows.length := by
  split
  · exact List.length_modify _ _ _
  · rfl

theorem getD_modify_if {α : Type} {rows : List (List α)} (change : List α → List α) {c : Prop}
    [Decidable c] (hu : u < rows.length) :
    (if c then rows.modify u change else rows).getD x []
      = if x = u ∧ c then change (rows.getD u []) else rows.getD x [] := by
  by_cases hc : c
  · simp only [if_pos hc, getD_modify change hu, and_iff_left hc]
  · rw [if_neg hc, if_neg fun h => hc h.2]

/-- The successors of a vertex after a request for an edge. A new one comes last. -/
theorem successorsOf_addEdge (hu : u < g.leaving.length) :
    (g.addEdge u v kind).1.successorsOf x
      = if x = u ∧ g.kind? u v = none then g.successorsOf u ++ [v] else g.successorsOf x := by
  rw [successorsOf, edgesFrom_addEdge hu]
  by_cases hx : x = u
  · subst hx
    rw [if_pos rfl, kind?]
    unfold record
    split
    case h_1 hold => simp [hold, successorsOf]
    case h_2 old hold => simp [hold, successorsOf, map_fst_promote]
    case h_3 old hold => simp [hold, successorsOf]
  · rw [if_neg hx, if_neg fun h => hx h.1]
    rfl

namespace Tables

/-! ### What a request changes -/

theorem successorsOf_addVertex (label : String) :
    (t.addVertex label).successorsOf x = t.successorsOf x := getD_append_nil _

theorem predecessorsOf_addVertex (label : String) :
    (t.addVertex label).predecessorsOf x = t.predecessorsOf x := getD_append_nil _

/-- A request for an edge changes its kind, and the rows of its ends if there was none. -/
theorem fst_addEdge (t : Tables) (u v : Nat) (kind : EdgeKind) :
    (t.addEdge u v kind).1 =
      { labels := t.labels
        successors := if t.kinds u v = none then t.successors.modify u (· ++ [v])
          else t.successors
        predecessors := if t.kinds u v = none then t.predecessors.modify v (· ++ [u])
          else t.predecessors
        kinds := fun a b => if a = u ∧ b = v then some (EdgeKind.merge (t.kinds u v) kind)
          else t.kinds a b } := by
  unfold addEdge
  split
  case h_1 hold =>
    rw [if_pos hold, if_pos hold, hold]
    rfl
  case h_2 old hold =>
    rw [if_neg (by simp [hold]), if_neg (by simp [hold]), hold]
    cases old <;> rfl
  case h_3 old hold =>
    have hkinds : t.kinds = fun a b => if a = u ∧ b = v
        then some (EdgeKind.merge (t.kinds u v) .dependency) else t.kinds a b := by
      funext a b
      split
      case isTrue hpair =>
        obtain ⟨rfl, rfl⟩ := hpair
        rw [hold]
        cases old <;> rfl
      case isFalse => rfl
    rw [if_neg (by simp [hold]), if_neg (by simp [hold]), ← hkinds]

theorem length_successors_addEdge :
    (t.addEdge u v kind).1.successors.length = t.successors.length := by
  rw [fst_addEdge]
  exact length_modify_if

theorem length_predecessors_addEdge :
    (t.addEdge u v kind).1.predecessors.length = t.predecessors.length := by
  rw [fst_addEdge]
  exact length_modify_if

theorem successorsOf_addEdge (hu : u < t.successors.length) :
    (t.addEdge u v kind).1.successorsOf x
      = if x = u ∧ t.kinds u v = none then t.successorsOf u ++ [v] else t.successorsOf x := by
  rw [fst_addEdge]
  exact getD_modify_if _ hu

theorem predecessorsOf_addEdge (hv : v < t.predecessors.length) :
    (t.addEdge u v kind).1.predecessorsOf x
      = if x = v ∧ t.kinds u v = none then t.predecessorsOf v ++ [u] else t.predecessorsOf x := by
  rw [fst_addEdge]
  exact getD_modify_if _ hv

theorem addEdge_isNew_iff : (t.addEdge u v kind).2 = true ↔ t.kinds u v = none := by
  unfold addEdge
  split
  case h_1 hold => simp [hold]
  case h_2 old hold => simp [hold]
  case h_3 old hold => simp [hold]

/-! ### What the tables show -/

namespace Shows

theorem size_eq (h : t.Shows g) : t.labels.length = g.size := by
  rw [h.labels_eq, size]

/-- Tables that show a well-formed graph are in step. -/
theorem inStep (h : t.Shows g) (hg : g.WellFormed) : t.InStep where
  length_successors := by rw [h.size_eq, h.length_successors]
  length_predecessors := by rw [h.size_eq, h.length_predecessors]
  lt_of_kind a b hkind := by
    rw [h.kinds_eq] at hkind
    rw [h.size_eq]
    exact ⟨hg.lt_of_edge_left hkind, hg.lt_of_edge_right hkind⟩
  mem_successorsOf_iff a b := by
    rw [h.successorsOf_eq, h.kinds_eq, ← edge_iff_mem_successorsOf, Edge]
  mem_predecessorsOf_iff a b := by
    rw [h.predecessorsOf_eq, h.kinds_eq, hg.mem_predecessorsOf, Edge]
  nodup_successorsOf a := by
    rw [h.successorsOf_eq]
    exact hg.nodup_successors a
  nodup_predecessorsOf b := by
    rw [h.predecessorsOf_eq]
    exact hg.nodup_predecessors b

theorem empty : Tables.empty.Shows Graph.empty where
  labels_eq := rfl
  length_successors := rfl
  length_predecessors := rfl
  successorsOf_eq _ := rfl
  predecessorsOf_eq _ := rfl
  kinds_eq _ _ := rfl

theorem addVertex (h : t.Shows g) (label : String) :
    (t.addVertex label).Shows (g.addVertex label) where
  labels_eq := congrArg (· ++ [label]) h.labels_eq
  length_successors := by
    rw [size_addVertex, ← h.length_successors]
    exact List.length_append
  length_predecessors := by
    rw [size_addVertex, ← h.length_predecessors]
    exact List.length_append
  successorsOf_eq v := by
    rw [successorsOf_addVertex, h.successorsOf_eq, Graph.successorsOf, Graph.successorsOf,
      edgesFrom_addVertex]
  predecessorsOf_eq v := by
    rw [predecessorsOf_addVertex, h.predecessorsOf_eq, Graph.predecessorsOf_addVertex]
  kinds_eq a b := by
    rw [kind?_addVertex, ← h.kinds_eq]
    rfl

theorem addEdge (h : t.Shows g) (hg : g.WellFormed) (hu : u < g.size) (hv : v < g.size) :
    (t.addEdge u v kind).1.Shows (g.addEdge u v kind).1 where
  labels_eq := by rw [fst_addEdge, Graph.labels_addEdge, h.labels_eq]
  length_successors := by rw [length_successors_addEdge, size_addEdge, h.length_successors]
  length_predecessors := by rw [length_predecessors_addEdge, size_addEdge, h.length_predecessors]
  successorsOf_eq x := by
    rw [successorsOf_addEdge (by rwa [h.length_successors]),
      Graph.successorsOf_addEdge (hg.lt_length_leaving hu), h.kinds_eq, h.successorsOf_eq,
      h.successorsOf_eq]
  predecessorsOf_eq x := by
    rw [predecessorsOf_addEdge (by rwa [h.length_predecessors]),
      Graph.predecessorsOf_addEdge (hg.lt_length_entering hv), h.kinds_eq, h.predecessorsOf_eq,
      h.predecessorsOf_eq]
  kinds_eq a b := by
    rw [fst_addEdge, kind?_addEdge (hg.lt_length_leaving hu), ← h.kinds_eq, ← h.kinds_eq]

/-- One request leaves the tables showing the graph. -/
theorem extend? (h : t.Shows g) (hg : g.WellFormed) {next : Graph}
    (hextend : g.extend? request = some next) :
    ∃ t', t.extend? request = some t' ∧ t'.Shows next := by
  cases request with
  | vertex label =>
    obtain rfl := Option.some.inj hextend
    exact ⟨t.addVertex label, rfl, h.addVertex label⟩
  | edge u v kind =>
    obtain ⟨hends, rfl⟩ := extend?_edge_eq_some_iff.1 hextend
    refine ⟨(t.addEdge u v kind).1, ?_, h.addEdge hg hends.1 hends.2⟩
    rw [Tables.extend?, h.size_eq, if_pos hends]

end Shows

theorem build?_append_singleton :
    build? (requests ++ [request]) = (build? requests).bind (extend? · request) := by
  rw [build?, List.foldlM_append, build?]
  simp

/-- Requests that build a graph build tables that show it. -/
theorem exists_shows (hbuild : Graph.build? requests = some g) :
    ∃ t, build? requests = some t ∧ t.Shows g := by
  induction requests using List.reverseRecOn generalizing g with
  | nil =>
    obtain rfl := Option.some.inj hbuild
    exact ⟨empty, rfl, .empty⟩
  | append_singleton requests request ih =>
    obtain ⟨before, hbefore, hextend⟩ := build?_append_singleton_eq_some_iff.1 hbuild
    obtain ⟨t, ht, hshows⟩ := ih hbefore
    obtain ⟨t', ht', hshows'⟩ := hshows.extend? (.of_build? hbefore) hextend
    refine ⟨t', ?_, hshows'⟩
    rw [build?_append_singleton, ht, Option.bind_some, ht']

theorem Shows.records (h : t.Shows g) (hbuild : Graph.build? requests = some g) :
    t.Records requests where
  parent_iff a b := by rw [h.kinds_eq, parent_iff_requested hbuild]
  dependency_iff a b := by rw [h.kinds_eq, dependency_iff_requested hbuild]
  none_iff a b := by rw [h.kinds_eq, none_iff_requested hbuild]

/-- After any requests the tables are in step, they show the graph, and they keep of the requests
for an edge which kinds were asked for. A request was answered as new if it was the first one for
its edge. -/
theorem tables_of_requests (hbuild : Graph.build? requests = some g) :
    ∃ t, build? requests = some t ∧ t.Shows g ∧ t.InStep ∧ t.Records requests ∧
      ∀ front a b kind back, requests = front ++ .edge a b kind :: back →
        ∃ t' g', build? front = some t' ∧ Graph.build? front = some g' ∧
          (t'.addEdge a b kind).2 = (g'.addEdge a b kind).2 ∧
          ((t'.addEdge a b kind).2 = true ↔ ∀ earlier, .edge a b earlier ∉ front) := by
  obtain ⟨t, ht, hshows⟩ := exists_shows hbuild
  refine ⟨t, ht, hshows, hshows.inStep (.of_build? hbuild), hshows.records hbuild, ?_⟩
  rintro front a b kind back rfl
  obtain ⟨g', hg'⟩ := exists_build?_of_append hbuild
  obtain ⟨t', ht', hshows'⟩ := exists_shows hg'
  refine ⟨t', g', ht', hg', ?_, ?_⟩
  · rw [Bool.eq_iff_iff, addEdge_isNew_iff, Graph.addEdge_isNew_iff, hshows'.kinds_eq, Edge,
      Option.not_isSome_iff_eq_none]
  · rw [addEdge_isNew_iff, (hshows'.records hg').none_iff]

/-- An edge that was asked for three times, between other requests, and as a parent edge in the
middle. -/
theorem tables_of_repeated_edge :
    let front : List Request :=
      [.vertex "a", .vertex "b", .edge 0 1 .dependency, .vertex "c", .edge 2 1 .dependency]
    let requests := front ++ [.edge 0 1 .parent, .edge 1 1 .parent, .edge 0 1 .dependency]
    let g : Graph := ⟨["a", "b", "c"], [[(1, .parent)], [(1, .parent)], [(1, .dependency)]],
      [[], [0, 2, 1], []]⟩
    Graph.build? requests = some g ∧
    ∃ t, build? requests = some t ∧ t.predecessors = [[], [0, 2, 1], []] ∧ t.Shows g ∧ t.InStep ∧
      t.kinds 0 1 = some .parent ∧ t.kinds 2 1 = some .dependency ∧
      ∃ t', build? front = some t' ∧ (t'.addEdge 0 1 .parent).2 = false := by
  intro front requests g
  have hbuild : Graph.build? requests = some g := rfl
  obtain ⟨t, ht, hshows, hstep, hrecords, hnew⟩ := tables_of_requests hbuild
  have hpredecessors : (build? requests).map (·.predecessors) = some [[], [0, 2, 1], []] := rfl
  rw [ht, Option.map_some, Option.some.injEq] at hpredecessors
  obtain ⟨t', _, ht', _, _, hfirst⟩ := hnew front 0 1 .parent _ rfl
  refine ⟨hbuild, t, ht, hpredecessors, hshows, hstep, ?_, ?_, t', ht', ?_⟩
  · exact (hrecords.parent_iff 0 1).2 (by simp [requests])
  · exact (hrecords.dependency_iff 2 1).2 (by simp [requests, front])
  · rw [← Bool.not_eq_true, hfirst, not_forall_not]
    exact ⟨.dependency, by simp [front]⟩

end Tables

end Rebuild.Graph
