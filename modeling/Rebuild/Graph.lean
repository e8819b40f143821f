/-!
# Graphs of constraints

A vertex is a number, handed out in order, with a label for reports. An edge from one vertex to
another says that the first comes before the second, and has a kind: the first is the parent of the
second, or something that the second depends on. Between two vertices there is at most one edge in
each direction. Where both kinds are asked for, the edge is a parent edge.
-/

namespace Rebuild

/-- Why one vertex comes before another. -/
inductive EdgeKind where
  | dependency
  | parent
deriving DecidableEq

/-- A directed graph. For each vertex the edges that leave it are listed in the order in which they
were added, each by the vertex that it leads to and its kind. The edges that enter a vertex are
listed as well, also in the order in which they were added, each by the vertex that it comes from. -/
structure Graph where
  labels : List String
  leaving : List (List (Nat × EdgeKind))
  entering : List (List Nat)

namespace Graph

/-- The graph without vertices. -/
def empty : Graph := ⟨[], [], []⟩

/-- The number of vertices. -/
def size (g : Graph) : Nat := g.labels.length

/-- The label of a vertex, if there is such a vertex. -/
def label? (g : Graph) (v : Nat) : Option String := g.labels[v]?

/-- The label of a vertex; the empty text for a number that is no vertex. -/
def label (g : Graph) (v : Nat) : String := (g.label? v).getD ""

/-- The edges that leave a vertex. -/
def edgesFrom (g : Graph) (v : Nat) : List (Nat × EdgeKind) := g.leaving.getD v []

/-- The vertices that come after a vertex by an edge, in the order in which the edges were added. -/
def successorsOf (g : Graph) (v : Nat) : List Nat := (g.edgesFrom v).map (·.1)

/-- The vertices that come before a vertex by an edge, in the order in which the edges were added. -/
def predecessorsOf (g : Graph) (v : Nat) : List Nat := g.entering.getD v []

/-- The kind of the edge between two vertices, if there is one. -/
def kind? (g : Graph) (before after : Nat) : Option EdgeKind :=
  (g.edgesFrom before).lookup after

/-- The graph with one more vertex. Its number is the size of the graph before. -/
def addVertex (g : Graph) (label : String) : Graph :=
  ⟨g.labels ++ [label], g.leaving ++ [[]], g.entering ++ [[]]⟩

/-- The edges that leave a vertex, with the one to another vertex made a parent edge. -/
def promote (after : Nat) (edges : List (Nat × EdgeKind)) : List (Nat × EdgeKind) :=
  edges.map fun edge => if edge.1 = after then (after, .parent) else edge

/-- The graph with an edge, and whether the edge is new. An edge that exists already stays one edge,
and becomes a parent edge if that is what is asked for. -/
def addEdge (g : Graph) (before after : Nat) (kind : EdgeKind) : Graph × Bool :=
  match g.kind? before after, kind with
  | none, _ =>
    ({ g with
        leaving := g.leaving.modify before (· ++ [(after, kind)])
        entering := g.entering.modify after (· ++ [before]) }, true)
  | some _, .parent => ({ g with leaving := g.leaving.modify before (promote after) }, false)
  | some _, .dependency => (g, false)

/-- As `addEdge`, for numbers that may be no vertices. -/
def addEdge? (g : Graph) (before after : Nat) (kind : EdgeKind) : Option (Graph × Bool) :=
  if before < g.size ∧ after < g.size then some (g.addEdge before after kind) else none

end Graph

end Rebuild
