import Rebuild.Proofs.BuildOrder.Report

/-!
# What a cycle report says about the candidates

A report goes from a candidate to one that it needs, and on, until it is back. The first link is the
one that is reported: it is a dependency if the cycle has one, and only a cycle of parents all the
way round is reported by a parent. So the kind of the report tells whether the cycle could be broken
by leaving out a dependency.

The positions of the way round are turned into the candidates there. With different keys this loses
nothing: different positions are different candidates, and the edges say what the candidates
declare.
-/

namespace Rebuild

/-! ### From positions to what is there -/

section Lookup

variable {α β : Type} {r : α → α → Prop} {s : β → β → Prop} {f : α → Option β} {way : List α}
  {found : List β}

theorem exists_map_eq (h : ∀ a ∈ way, ∃ x, f a = some x) :
    ∃ found : List β, way.map f = found.map some := by
  induction way with
  | nil => exact ⟨[], rfl⟩
  | cons a way ih =>
    obtain ⟨⟨x, hx⟩, hway⟩ := List.forall_mem_cons.1 h
    obtain ⟨found, hfound⟩ := ih hway
    exact ⟨x :: found, by rw [List.map_cons, List.map_cons, hx, hfound]⟩

theorem isChain_iff_of_map_eq (hmap : way.map f = found.map some) :
    (way.IsChain fun a b => ∀ x y, f a = some x → f b = some y → s x y) ↔ found.IsChain s := by
  let both : Option β → Option β → Prop := fun a b => ∀ x y, a = some x → b = some y → s x y
  have hway : (way.map f).IsChain both
      ↔ way.IsChain fun a b => ∀ x y, f a = some x → f b = some y → s x y := List.isChain_map f
  have hfound : (found.map some).IsChain both ↔ found.IsChain fun x y => both (some x) (some y) :=
    List.isChain_map some
  rw [← hway, hmap, hfound]
  simp [both]

/-- A round trip of positions is one of what is there, if each thing is at one position only. -/
theorem RoundTrip.of_map_eq (h : RoundTrip r way) (hmap : way.map f = found.map some)
    (hinj : ∀ a b x, f a = some x → f b = some x → a = b)
    (hr : ∀ a b, r a b → ∀ x y, f a = some x → f b = some y → s x y) : RoundTrip s found := by
  refine ⟨?_, ?_, ?_, ?_⟩
  · have hlength := congrArg List.length hmap
    rw [List.length_map, List.length_map] at hlength
    exact hlength ▸ h.two_le_length
  · have hends : (way.map f).head? = (way.map f).getLast? := by
      rw [List.head?_map, List.getLast?_map, h.head?_eq]
    rw [hmap, List.head?_map, List.getLast?_map] at hends
    exact Option.map_injective (Option.some_injective β) hends
  · have hnodup : (way.tail.map f).Nodup := by
      refine h.nodup.map_on fun a ha b _ heq => ?_
      obtain ⟨x, -, hx⟩ := BuildOrder.exists_of_map_eq hmap (List.mem_of_mem_tail ha)
      exact hinj a b x hx (heq ▸ hx)
    rw [List.map_tail, hmap, ← List.map_tail] at hnodup
    exact hnodup.of_map some
  · exact (isChain_iff_of_map_eq hmap).1 (h.chain.imp hr)

end Lookup

namespace BuildOrder

open Rebuild.Graph

variable {projects : List Project} {g : Graph} {cycle : Cycle} {error : Error}

/-! ### The link that is reported -/

/-- A report begins with the two ends of the edge whose kind it goes by. -/
theorem exists_wayRound_eq_cons (hcycle : cycle.LiesIn g) : ∃ after before rest,
    wayRound cycle = after :: before :: rest ∧
      g.kind? before after = some (reportedKind cycle) := by
  have hlt := reportedEdge_lt hcycle
  obtain ⟨before, after, kind, hbefore, hafter, hkind, hedge⟩ := hcycle.edge _ hlt
  have hfirst : (ring cycle).head? = some after := by
    rw [ring_eq_rotate hcycle, List.head?_eq_getElem?, List.getElem?_rotate (Nat.zero_lt_of_lt hlt),
      Nat.zero_add, hafter]
  have hlast : (ring cycle).getLast? = some before := by
    rw [ring, List.take_add_one, hbefore, ← List.append_assoc]
    exact List.getLast?_concat
  obtain ⟨front, hring⟩ := List.getLast?_eq_some_iff.1 hlast
  refine ⟨after, before, front.reverse, ?_, ?_⟩
  · rw [wayRound, List.take_one, hfirst, hring, List.reverse_concat]
    rfl
  · rw [hedge, reportedKind, hkind]
    rfl

theorem eq_parent_of_reportedKind (hkind : reportedKind cycle = .parent) {kind : EdgeKind}
    (hmem : kind ∈ cycle.kinds) : kind = .parent := by
  cases hfind : cycle.kinds.findIdx? (· = .dependency) with
  | none =>
    have hnone := List.findIdx?_eq_none_iff.1 hfind kind hmem
    cases kind with
    | dependency => cases hnone
    | parent => rfl
  | some edge =>
    obtain ⟨hedge, hdependency, -⟩ := List.findIdx?_eq_some_iff_getElem.1 hfind
    rw [reportedKind, reportedEdge, hfind, Option.getD_some, List.getElem?_eq_getElem hedge,
      of_decide_eq_true hdependency] at hkind
    cases hkind

/-- A report goes by a parent exactly if there are only parents on its way round. -/
theorem isChain_wayRound_parent_iff (hcycle : cycle.LiesIn g) :
    ((wayRound cycle).IsChain fun after before => g.kind? before after = some .parent)
      ↔ reportedKind cycle = .parent := by
  constructor
  · intro hchain
    obtain ⟨after, before, rest, hway, hkind⟩ := exists_wayRound_eq_cons hcycle
    rw [hway] at hchain
    exact Option.some.inj (hkind.symm.trans hchain.rel)
  · intro hkind
    have haround : Around (fun before after => g.kind? before after = some .parent)
        cycle.vertices := by
      intro i hi a b ha hb
      obtain ⟨before, after, kind, hbefore, hafter, hmem, hedge⟩ := hcycle.edge i hi
      obtain rfl := Option.some.inj (ha.symm.trans hbefore)
      obtain rfl := Option.some.inj (hb.symm.trans hafter)
      rw [hedge, eq_parent_of_reportedKind hkind (List.mem_of_getElem? hmem)]
    rw [wayRound, ring_eq_rotate hcycle]
    refine (Around.roundTrip (haround.rotate _) ?_ ?_).chain
    · rw [ne_eq, List.rotate_eq_nil_iff]
      exact hcycle.ne_nil
    · exact List.nodup_rotate.2 hcycle.nodup

/-! ### The candidates on the way round -/

/-- The one candidate names the other as its parent. -/
def Inherits (child parent : Project) : Prop := child.parent = some parent.key

theorem exists_project_of_mem_wayRound (hkeys : (projects.map (·.key)).Nodup)
    (hcycle : cycle.LiesIn (constraints projects).1) {v : Nat} (hv : v ∈ wayRound cycle) :
    ∃ project, projects[v]? = some project := by
  have hring : v ∈ ring cycle := by
    rcases List.mem_append.1 hv with hfirst | hrest
    · exact List.mem_of_mem_take hfirst
    · exact List.mem_reverse.1 hrest
  rw [ring_eq_rotate hcycle, List.mem_rotate] at hring
  have hlt := hcycle.lt_size v hring
  rw [size_constraints hkeys] at hlt
  exact ⟨_, List.getElem?_eq_getElem hlt⟩

theorem kind?_eq_parent_iff (hkeys : (projects.map (·.key)).Nodup) {i j : Nat}
    {before after : Project} (hbefore : projects[i]? = some before)
    (hafter : projects[j]? = some after) :
    (constraints projects).1.kind? i j = some .parent ↔ Inherits after before := by
  rw [kind?_constraints hkeys hbefore hafter, Inherits]
  split
  case isTrue hparent => simp [hparent]
  case isFalse hparent =>
    split
    · simp [hparent]
    · simp [hparent]

theorem map_keyText_of_map_eq {positions : List Nat} {way : List Project}
    (hway : positions.map (projects[·]?) = way.map some) :
    positions.map (keyText projects) = way.map (·.key.text) := by
  have htexts := congrArg (List.map fun entry => (entry.map (·.key.text)).getD "") hway
  rwa [List.map_map, List.map_map] at htexts

/-- The candidates at the positions of a way round. The first link decides whether all of them lead
to parents. -/
theorem exists_way_of_sort_error (hkeys : (projects.map (·.key)).Nodup)
    (hsort : (constraints projects).1.sort = .error cycle) : ∃ first second rest way,
      way = first :: second :: rest ∧
      RoundTrip (fun project needed => Constraint projects needed project) way ∧
      (way.IsChain Inherits ↔ reportedKind cycle = .parent) ∧
      (Inherits first second ↔ reportedKind cycle = .parent) ∧
      (buildOrder projects).outcome
        = .error (cycleError (reportedKind cycle) (way.map (·.key.text))) := by
  have hcycle := liesIn_of_sort_eq_error (linked_constraints hkeys).wellFormed hsort
  obtain ⟨htrip, herror⟩ := outcome_of_sort_error hkeys hsort
  obtain ⟨way, hway⟩ := exists_map_eq fun v hv => exists_project_of_mem_wayRound hkeys hcycle hv
  obtain ⟨after, before, others, hround, hkind⟩ := exists_wayRound_eq_cons hcycle
  have hcons := hway
  rw [hround, List.map_cons, List.map_cons, eq_comm, List.map_eq_cons_iff] at hcons
  obtain ⟨first, tail, rfl, hfirst, hcons⟩ := hcons
  obtain ⟨second, rest, rfl, hsecond, -⟩ := List.map_eq_cons_iff.1 hcons
  refine ⟨first, second, rest, _, rfl, htrip.of_map_eq hway ?_ ?_, ?_, ?_, ?_⟩
  · intro i j project hi hj
    have hlt := (List.getElem?_eq_some_iff.1 hi).1
    exact (List.getElem?_inj hlt hkeys.of_map).1 (hi.trans hj.symm)
  · rintro i j ⟨before, after, hbefore, hafter, hneeded⟩ project needed hproject hneed
    obtain rfl := Option.some.inj (hproject.symm.trans hafter)
    obtain rfl := Option.some.inj (hneed.symm.trans hbefore)
    exact ⟨List.mem_of_getElem? hbefore, List.mem_of_getElem? hafter, hneeded⟩
  · rw [← isChain_wayRound_parent_iff hcycle, ← isChain_iff_of_map_eq hway]
    refine List.IsChain.iff_of_mem_imp fun i j hi hj => ?_
    obtain ⟨after, hafter⟩ := exists_project_of_mem_wayRound hkeys hcycle hi
    obtain ⟨before, hbefore⟩ := exists_project_of_mem_wayRound hkeys hcycle hj
    rw [kind?_eq_parent_iff hkeys hbefore hafter]
    simp [hbefore, hafter]
  · rw [← kind?_eq_parent_iff hkeys hsecond.symm hfirst.symm, hkind, Option.some.injEq]
  · rw [herror, map_keyText_of_map_eq hway]

/-! ### Main result -/

/-- When candidates with different keys have no order, the report names a loop of candidates in
which each needs the next one. It begins with the two that it gives as the project and what the
project needs. It is a report of parents if every link of the loop leads to the parent, and else one
of dependencies; then the second candidate is a dependency of the first and not its parent. -/
theorem error_of_buildOrder (hkeys : (projects.map (·.key)).Nodup)
    (herror : (buildOrder projects).outcome = .error error) :
    ∃ first second rest way, way = first :: second :: rest ∧
      RoundTrip (fun project needed => Constraint projects needed project) way ∧
      (error = .parentCycle second.key.text first.key.text
          (" -> ".intercalate (way.map (·.key.text))) ↔ way.IsChain Inherits) ∧
      (error = .dependencyCycle second.key.text first.key.text
          (" -> ".intercalate (way.map (·.key.text))) ↔ ¬ way.IsChain Inherits) ∧
      (¬ way.IsChain Inherits → second.key ∈ first.dependencies ∧ ¬ Inherits first second) := by
  obtain ⟨cycle, hsort⟩ : ∃ cycle, (constraints projects).1.sort = .error cycle := by
    rw [outcome_of_nodup hkeys] at herror
    cases hsort : (constraints projects).1.sort with
    | ok order =>
      rw [hsort] at herror
      cases herror
    | error cycle => exact ⟨cycle, rfl⟩
  obtain ⟨first, second, rest, way, hway, htrip, hparents, hfirst, hreport⟩ :=
    exists_way_of_sort_error hkeys hsort
  obtain rfl := Except.error.inj (herror.symm.trans hreport)
  refine ⟨first, second, rest, way, hway, htrip, ?_, ?_, ?_⟩
  · rw [hparents, hway]
    cases reportedKind cycle <;> simp [cycleError]
  · rw [hparents, hway]
    cases reportedKind cycle <;> simp [cycleError]
  · intro hdependency
    rw [hparents, ← hfirst] at hdependency
    have hneeded := (hway ▸ htrip).chain.rel.2.2
    exact ⟨(hneeded.resolve_left hdependency).1, hdependency⟩

/-- The cycle goes through a parent and through two dependencies, and a candidate that only depends
on it has no part in the report. -/
theorem error_of_mixed_loop :
    let projects : List Project := [⟨⟨"g", "late"⟩, "1", none, [⟨"g", "a"⟩]⟩,
      ⟨⟨"g", "a"⟩, "1", none, [⟨"g", "b"⟩]⟩, ⟨⟨"g", "b"⟩, "1", some ⟨"g", "c"⟩, [⟨"g", "c"⟩]⟩,
      ⟨⟨"g", "c"⟩, "1", none, [⟨"g", "a"⟩]⟩]
    (projects.map (·.key)).Nodup ∧ (buildOrder projects).outcome
      = .error (.dependencyCycle "g:b" "g:a" "g:a -> g:b -> g:c -> g:a") ∧
    ∃ first second rest way, way = first :: second :: rest ∧
      RoundTrip (fun project needed => Constraint projects needed project) way ∧
      ¬ way.IsChain Inherits ∧ second.key ∈ first.dependencies ∧ ¬ Inherits first second := by
  intro projects
  have hkeys : (projects.map (·.key)).Nodup := by decide
  let cycle : Cycle := ⟨[3, 2, 1], [.parent, .dependency, .dependency]⟩
  have hsort : (constraints projects).1.sort = .error cycle := by decide +kernel
  have hnames : (wayRound cycle).map (keyText projects) = ["g:a", "g:b", "g:c", "g:a"] := by
    decide +kernel
  have htext : " -> ".intercalate ["g:a", "g:b", "g:c", "g:a"] = "g:a -> g:b -> g:c -> g:a" := by
    decide +kernel
  have herror : (buildOrder projects).outcome
      = .error (.dependencyCycle "g:b" "g:a" "g:a -> g:b -> g:c -> g:a") := by
    rw [(outcome_of_sort_error hkeys hsort).2, hnames, ← htext]
    rfl
  obtain ⟨first, second, rest, way, hway, htrip, hparents, -, hfirst⟩ :=
    error_of_buildOrder hkeys herror
  have hdependency : ¬ way.IsChain Inherits := fun hchain => by cases hparents.2 hchain
  exact ⟨hkeys, herror, first, second, rest, way, hway, htrip, hdependency, hfirst hdependency⟩

end BuildOrder

end Rebuild
