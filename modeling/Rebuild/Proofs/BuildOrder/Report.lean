import Rebuild.Proofs.BuildOrder.Outcome

/-!
# What a cycle report says

A report names candidates by the texts of their keys, and it goes round the cycle from a candidate to
what it needs. Before any key is looked at the report is a list of positions: the cycle is turned so
that the reported edge comes last, then read backwards, with its start put in front once more. So it
begins with the two ends of the reported edge, every position on it needs the next one, and it ends
where it began.
-/

namespace Rebuild

/-! ### Round trips -/

/-- A way along a relation that ends where it began, and meets nothing else twice. -/
structure RoundTrip {α : Type} (r : α → α → Prop) (way : List α) : Prop where
  two_le_length : 2 ≤ way.length
  head?_eq : way.head? = way.getLast?
  nodup : way.tail.Nodup
  chain : way.IsChain r

section Ring

variable {α : Type} {r : α → α → Prop} {ring : List α}

/-- Each entry of a ring is related to the next one, and the last one to the first. -/
def Around (r : α → α → Prop) (ring : List α) : Prop :=
  ∀ i < ring.length, ∀ a b, ring[i]? = some a → ring[(i + 1) % ring.length]? = some b → r a b

theorem Around.isChain_closed {first : α} {rest : List α} (h : Around r (first :: rest)) :
    (first :: rest ++ [first]).IsChain r := by
  rw [List.isChain_iff_getElem]
  intro i hi
  have hlt : i < (first :: rest).length := by
    rw [List.length_append, List.length_singleton] at hi
    omega
  apply h i hlt
  · rw [List.getElem_append_left hlt, List.getElem?_eq_getElem hlt]
  · -- either the next entry is in the list as well, or it is the start, put at the end once more
    rcases Nat.lt_or_eq_of_le (Nat.succ_le_of_lt hlt) with hinner | hlast
    · rw [Nat.mod_eq_of_lt hinner, List.getElem_append_left hinner, List.getElem?_eq_getElem hinner]
    · obtain rfl : i = rest.length := Nat.succ.inj hlast
      simp

theorem Around.rotate (h : Around r ring) (n : Nat) : Around r (ring.rotate n) := by
  intro i hi a b ha hb
  rw [List.length_rotate] at hi hb
  have hpos : 0 < ring.length := Nat.zero_lt_of_lt hi
  rw [List.getElem?_rotate hi] at ha
  rw [List.getElem?_rotate (Nat.mod_lt _ hpos)] at hb
  have hnext : ((i + 1) % ring.length + n) % ring.length
      = ((i + n) % ring.length + 1) % ring.length := by
    rw [Nat.mod_add_mod, Nat.mod_add_mod, Nat.add_right_comm]
  rw [hnext] at hb
  exact h _ (Nat.mod_lt _ hpos) a b ha hb

/-- Read backwards, with its start put in front, a ring is a round trip. -/
theorem Around.roundTrip (h : Around r ring) (hne : ring ≠ []) (hnodup : ring.Nodup) :
    RoundTrip (fun a b => r b a) (ring.take 1 ++ ring.reverse) := by
  obtain ⟨first, rest, rfl⟩ := List.exists_cons_of_ne_nil hne
  have hback : (first :: rest).take 1 ++ (first :: rest).reverse
      = (first :: rest ++ [first]).reverse := by simp
  refine ⟨by simp, ?_, ?_, ?_⟩
  · rw [hback, List.head?_reverse, List.getLast?_reverse, List.getLast?_concat]
    rfl
  · exact List.nodup_reverse.2 hnodup
  · rw [hback, List.isChain_reverse]
    exact h.isChain_closed

end Ring

theorem Cycle.LiesIn.around {g : Graph} {cycle : Cycle} (hcycle : cycle.LiesIn g) :
    Around g.Edge cycle.vertices := by
  intro i hi a b ha hb
  obtain ⟨before, after, kind, hbefore, hafter, -, hkind⟩ := hcycle.edge i hi
  obtain rfl := Option.some.inj (ha.symm.trans hbefore)
  obtain rfl := Option.some.inj (hb.symm.trans hafter)
  exact Graph.edge_of_kind? hkind

namespace BuildOrder

open Rebuild.Graph

variable {projects : List Project} {g : Graph} {cycle : Cycle} {i j : Nat}

/-! ### The way round -/

/-- Which edge of a cycle is reported: the first dependency, or else the first one. -/
def reportedEdge (cycle : Cycle) : Nat :=
  (cycle.kinds.findIdx? (· = .dependency)).getD 0

/-- The kind of the edge that is reported. -/
def reportedKind (cycle : Cycle) : EdgeKind :=
  (cycle.kinds[reportedEdge cycle]?).getD .dependency

/-- The vertices of a cycle, turned so that the reported edge leads from the last to the first. -/
def ring (cycle : Cycle) : List Nat :=
  cycle.vertices.drop (reportedEdge cycle + 1) ++ cycle.vertices.take (reportedEdge cycle + 1)

/-- The vertices that a report names, in order. -/
def wayRound (cycle : Cycle) : List Nat :=
  (ring cycle).take 1 ++ (ring cycle).reverse

/-- The report of a cycle whose vertices have these names. -/
def cycleError (kind : EdgeKind) (names : List String) : Error :=
  match kind with
  | .parent => .parentCycle (names.getD 1 "") (names.getD 0 "") (" -> ".intercalate names)
  | .dependency => .dependencyCycle (names.getD 1 "") (names.getD 0 "") (" -> ".intercalate names)

theorem describe_eq (g : Graph) (cycle : Cycle) :
    describe g cycle = cycleError (reportedKind cycle) ((wayRound cycle).map g.label) := by
  rw [describe]
  split
  case h_1 hparent =>
    have hkind : reportedKind cycle = .parent := congrArg (·.getD .dependency) hparent
    rw [hkind]
    rfl
  case h_2 hother =>
    have hkind : reportedKind cycle = .dependency := by
      rw [reportedKind]
      rcases hreported : cycle.kinds[reportedEdge cycle]? with _ | (_ | _)
      · rfl
      · rfl
      · exact absurd hreported hother
    rw [hkind]
    rfl

theorem reportedEdge_lt (hcycle : cycle.LiesIn g) : reportedEdge cycle < cycle.vertices.length := by
  rw [reportedEdge, ← hcycle.length_kinds]
  cases hfind : cycle.kinds.findIdx? (· = .dependency) with
  | none =>
    rw [Option.getD_none, hcycle.length_kinds]
    exact List.length_pos_of_ne_nil hcycle.ne_nil
  | some edge =>
    obtain ⟨hlt, -⟩ := List.findIdx?_eq_some_iff_getElem.1 hfind
    exact hlt

theorem ring_eq_rotate (hcycle : cycle.LiesIn g) :
    ring cycle = cycle.vertices.rotate (reportedEdge cycle + 1) := by
  rw [ring, List.rotate_eq_drop_append_take (Nat.succ_le_of_lt (reportedEdge_lt hcycle))]

/-- A report of a cycle of the graph goes round that cycle against the edges. -/
theorem roundTrip_wayRound (hcycle : cycle.LiesIn g) :
    RoundTrip (fun after before => g.Edge before after) (wayRound cycle) := by
  have hring := ring_eq_rotate hcycle
  apply Around.roundTrip
  · rw [hring]
    exact hcycle.around.rotate _
  · rw [hring, Ne, List.rotate_eq_nil_iff]
    exact hcycle.ne_nil
  · rw [hring, List.nodup_rotate]
    exact hcycle.nodup

/-! ### Names -/

theorem labels_foldl_addParent (links : List (Nat × Nat)) (g : Graph) :
    (links.foldl addParent g).labels = g.labels := by
  induction links generalizing g with
  | nil => rfl
  | cons link rest ih =>
    rw [List.foldl_cons, ih]
    exact labels_addEdge

theorem labels_enforce (link : Nat × Nat) : (enforce g link).labels = g.labels := by
  unfold enforce
  split
  · rfl
  · exact labels_addEdge

theorem labels_foldl_enforce (links : List (Nat × Nat)) (g : Graph) :
    (links.foldl enforce g).labels = g.labels := by
  induction links generalizing g with
  | nil => rfl
  | cons link rest ih => rw [List.foldl_cons, ih, labels_enforce]

theorem labels_vertices (projects : List Project) :
    (vertices projects).labels = projects.map (·.key.text) := by
  induction projects using List.reverseRecOn with
  | nil => rfl
  | append_singleton init last ih =>
    rw [vertices_append_singleton, addVertex, ih, List.map_append, List.map_singleton]

theorem labels_inherited (projects : List Project) :
    (inherited projects).labels = projects.map (·.key.text) := by
  rw [inherited, labels_foldl_addParent, labels_vertices]

theorem labels_constraints (projects : List Project) :
    (constraints projects).1.labels = projects.map (·.key.text) := by
  rw [fst_constraints, labels_foldl_enforce, labels_inherited]

/-- The text of the key at a position. -/
def keyText (projects : List Project) (i : Nat) : String :=
  ((projects[i]?).map (·.key.text)).getD ""

theorem label_constraints (projects : List Project) :
    (constraints projects).1.label = keyText projects := by
  funext i
  rw [label, label?, labels_constraints, List.getElem?_map]
  rfl

/-! ### The report of a build order -/

/-- The candidate at the one position must come before the candidate at the other. -/
def NeededAt (projects : List Project) (i j : Nat) : Prop :=
  ∃ before after, projects[i]? = some before ∧ projects[j]? = some after ∧ Needed before after

/-- What is reported when the constraints have no order: a way round from each candidate to one that
it needs. -/
theorem outcome_of_sort_error (hkeys : (projects.map (·.key)).Nodup)
    (hsort : (constraints projects).1.sort = .error cycle) :
    RoundTrip (fun after before => NeededAt projects before after) (wayRound cycle) ∧
    (buildOrder projects).outcome
      = .error (cycleError (reportedKind cycle) ((wayRound cycle).map (keyText projects))) := by
  have hcycle := liesIn_of_sort_eq_error (linked_constraints hkeys).wellFormed hsort
  constructor
  · have hedge : (fun after before => NeededAt projects before after)
        = fun after before => (constraints projects).1.Edge before after := by
      funext after before
      exact propext (edge_constraints_iff hkeys).symm
    rw [hedge]
    exact roundTrip_wayRound hcycle
  · rw [outcome_of_nodup hkeys, hsort, ← label_constraints, ← describe_eq]

end BuildOrder

end Rebuild
