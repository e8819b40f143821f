import Rebuild.Graph

/-!
# Cycles

When a sort gets stuck, every vertex that was not placed has a predecessor that was not placed
either. Walking from such a vertex to the lowest of its stuck predecessors, and on, must come back
to a vertex that it has seen: there is no end of stuck predecessors, and only so many vertices. The
part of the walk from there on, turned round, is a cycle.
-/

namespace Rebuild

/-- A cycle. Every vertex comes before the next one, and the last before the first. The kinds are
those of the edges that leave the vertices. -/
structure Cycle where
  vertices : List Nat
  kinds : List EdgeKind
deriving DecidableEq

/-- The pairs of neighbours of a list that closes up on itself. -/
def pairsAround {α : Type} (ring : List α) : List (α × α) :=
  ring.zip (ring.tail ++ ring.take 1)

namespace Graph

/-- The lowest stuck predecessor of a vertex; the vertex itself if it has none. -/
def lowestBefore (g : Graph) (stuck : Nat → Bool) (v : Nat) : Nat :=
  ((g.predecessorsOf v).filter stuck).min?.getD v

/-- Walks from predecessor to predecessor until a vertex is reached that is not among the unvisited
ones. Gives that vertex and the walk, the latest vertex first. -/
def walkBack (g : Graph) (stuck : Nat → Bool) (unvisited : List Nat) (v : Nat)
    (walk : List Nat) : Nat × List Nat :=
  if _h : v ∈ unvisited then
    g.walkBack stuck (unvisited.erase v) (g.lowestBefore stuck v) (v :: walk)
  else (v, walk)
termination_by unvisited.length
decreasing_by
  have := List.length_erase_of_mem _h
  have := List.length_pos_of_mem _h
  omega

/-- A cycle among the stuck vertices, found from the lowest of them. -/
def findCycle (g : Graph) (stuck : Nat → Bool) : Cycle :=
  let start := ((List.range g.size).find? stuck).getD 0
  let (again, walk) := g.walkBack stuck (List.range g.size) start []
  let vertices := walk.takeWhile (· ≠ again) ++ [again]
  { vertices
    kinds := (pairsAround vertices).map fun (before, after) =>
      (g.kind? before after).getD .dependency }

end Graph

end Rebuild
