import Rebuild.Graph.Cycle

/-!
# Sorting a graph

A vertex is ready when all its predecessors are placed. Of the vertices that are ready the one with
the lowest number is placed next, so that vertices without constraints between them keep their
order. A sort is a sequence of states; in each the count kept for a vertex is the number of its
predecessors that are not placed yet. If no vertex is ready and some are not placed, there is a
cycle among those.
-/

namespace Rebuild.Graph

/-- The state of a sort: for each vertex how many predecessors it waits for, the vertices that are
ready in ascending order, and those that are placed, in order. -/
structure Progress where
  waiting : List Nat
  ready : List Nat
  placed : List Nat

/-- A number put into ascending numbers. -/
def insertAscending (v : Nat) : List Nat → List Nat
  | [] => [v]
  | first :: rest => if v ≤ first then v :: first :: rest else first :: insertAscending v rest

namespace Progress

/-- One predecessor of a vertex has been placed. -/
def release (p : Progress) (v : Nat) : Progress :=
  let left := p.waiting.getD v 0 - 1
  { p with
    waiting := p.waiting.set v left
    ready := if left = 0 then insertAscending v p.ready else p.ready }

/-- A vertex is stuck while it waits for a predecessor. -/
def stuck (p : Progress) (v : Nat) : Bool :=
  0 < p.waiting.getD v 0

end Progress

/-- Nothing is placed, and the vertices without predecessors are ready. -/
def begin (g : Graph) : Progress :=
  let waiting := (List.range g.size).map fun v => (g.predecessorsOf v).length
  ⟨waiting, (List.range g.size).filter fun v => waiting.getD v 0 = 0, []⟩

/-- Places the lowest ready vertex, if there is one. -/
def step (g : Graph) (p : Progress) : Progress :=
  match p.ready with
  | [] => p
  | v :: rest =>
    (g.successorsOf v).foldl Progress.release { p with ready := rest, placed := p.placed ++ [v] }

/-- The state after a number of steps. -/
def progressAfter (g : Graph) : Nat → Progress
  | 0 => g.begin
  | n + 1 => g.step (g.progressAfter n)

/-- The vertices in an order in which every edge points forward, or a cycle. Each step places one
vertex, so as many steps as there are vertices are enough. -/
def sort (g : Graph) : Except Cycle (List Nat) :=
  let final := g.progressAfter g.size
  if final.placed.length = g.size then .ok final.placed else .error (g.findCycle final.stuck)

end Rebuild.Graph
