import Rebuild.Graph.Sort
import Rebuild.Project
import Rebuild.Reported

/-!
# The order of a build

Candidates are put into an order in which each comes after its parent and after what it depends on,
as far as those are candidates too. A candidate's dependency on its own child cannot be kept, since
the child needs its parent first; it is dropped, and the log says so. Candidates without constraints
between them keep their order.

Two candidates with one key cannot be ordered at all, whatever their versions. A cycle is reported
by one of its edges, by the first dependency in it if there is one, and by the way round.
-/

namespace Rebuild.BuildOrder

/-- The first candidate whose key an earlier one has, after that earlier one. -/
def findClash (earlier : List Project) : List Project → Option (Project × Project)
  | [] => none
  | project :: rest =>
    match earlier.find? (·.key = project.key) with
    | some holder => some (holder, project)
    | none => findClash (earlier ++ [project]) rest

/-- One vertex for each candidate, at its position, labelled with its key. -/
def vertices (projects : List Project) : Graph :=
  projects.foldl (fun g project => g.addVertex project.key.text) .empty

/-- The candidates' parents that are candidates, as pairs of the parent and the child. -/
def parentLinks (projects : List Project) : List (Nat × Nat) :=
  projects.zipIdx.filterMap fun (project, child) =>
    (project.parent.bind (Project.position? projects)).map (·, child)

/-- The candidates' dependencies that are candidates, as pairs of the dependency and the one that
declares it, in the order of declaration. -/
def dependencyLinks (projects : List Project) : List (Nat × Nat) :=
  projects.zipIdx.flatMap fun (project, dependent) =>
    project.dependencies.filterMap fun key =>
      (Project.position? projects key).map (·, dependent)

/-- The graph with a parent edge. -/
def addParent (g : Graph) (link : Nat × Nat) : Graph :=
  (g.addEdge link.1 link.2 .parent).1

/-- The graph with a dependency edge, unless the one that depends is the parent of what it depends
on. A dependency that is dropped is logged. -/
def addDependency (built : Graph × List LogLine) (link : Nat × Nat) : Graph × List LogLine :=
  let (g, lines) := built
  if g.kind? link.2 link.1 = some .parent then
    (g, lines ++ [⟨.debug, s!"Ignoring dependency of {g.label link.2} on its child " ++
      s!"{g.label link.1}; parent is built first"⟩])
  else ((g.addEdge link.1 link.2 .dependency).1, lines)

/-- The constraints between candidates with different keys, and what is logged about them. Parents
come first, so that a dependency is dropped wherever its declaration stands. -/
def constraints (projects : List Project) : Graph × List LogLine :=
  let inherited := (parentLinks projects).foldl addParent (vertices projects)
  (dependencyLinks projects).foldl addDependency (inherited, [])

/-- A cycle as a failure. The way round starts at the project whose edge is reported and goes from
each project to one that it needs. -/
def describe (g : Graph) (cycle : Cycle) : Error :=
  let reported := (cycle.kinds.findIdx? (· = .dependency)).getD 0
  let ring := cycle.vertices.drop (reported + 1) ++ cycle.vertices.take (reported + 1)
  let names := (ring.take 1 ++ ring.reverse).map g.label
  let project := names.getD 0 ""
  let needed := names.getD 1 ""
  let way := " -> ".intercalate names
  match cycle.kinds[reported]? with
  | some .parent => .parentCycle needed project way
  | _ => .dependencyCycle needed project way

end BuildOrder

/-- The candidates in an order in which they can be built. -/
def buildOrder (projects : List Project) : Reported (List Project) :=
  if projects.isEmpty then return []
  else match BuildOrder.findClash [] projects with
    | some (first, second) =>
      .failed (.duplicateProject second.key.text first.name second.name)
    | none => do
      let (graph, lines) := BuildOrder.constraints projects
      Reported.logAll lines
      match graph.sort with
      | .error cycle => .failed (BuildOrder.describe graph cycle)
      | .ok order =>
        Reported.log .debug s!"Ordered {order.length} build candidates"
        return order.filterMap (projects[·]?)

end Rebuild
