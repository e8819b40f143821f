import Rebuild.FileSystem.Change
import Rebuild.Proofs.Reading.Agreement
import Rebuild.Proofs.Staleness.Verdict

/-!
# The order in which targets are named

A comparison stops at the first outdated target, so how far it gets depends on the order in which the
targets are named. What it says does not: it says that a target is outdated only if one is, and that
none is only after it has looked at all of them. Only a target whose time cannot be found out makes a
difference, since one comparison may come to it and fail where the other has stopped before.

So two searches with the same targets, in another order or with repetitions, agree in all that they
say and log, unless one of them fails at such a target. That is shown for the targets of one source
and is kept by everything that a search is put together from.
-/

namespace Rebuild

open Reported (SameUnless)

/-- The same targets are named, perhaps in another order or more often. -/
inductive Policy.SameTargets : Policy → Policy → Prop where
  | explicit (sourceSuffix : String) {names others : List String}
      (h : ∀ name, name ∈ names ↔ name ∈ others) :
      SameTargets (.explicit sourceSuffix names) (.explicit sourceSuffix others)
  | suffixes (sourceSuffix : String) {tails others : List String}
      (h : ∀ tail, tail ∈ tails ↔ tail ∈ others) :
      SameTargets (.suffixes sourceSuffix tails) (.suffixes sourceSuffix others)

namespace Policy.SameTargets

variable {policy policy' : Policy}

theorem exists_mappings (h : policy.SameTargets policy') : ∃ mappings mappings',
    policy.mappings = some mappings ∧ policy'.mappings = some mappings' := by
  cases h with
  | explicit => exact ⟨_, _, rfl, rfl⟩
  | suffixes => exact ⟨_, _, rfl, rfl⟩

theorem mem_targets_iff (h : policy.SameTargets policy') (directory : Path) (source : String)
    (target : Path) :
    target ∈ (policy.mappings.getD []).flatMap (Mapping.targets directory source) ↔
      target ∈ (policy'.mappings.getD []).flatMap (Mapping.targets directory source) := by
  cases h with
  | explicit sourceSuffix h => simp [mappings, List.mem_flatMap, h]
  | suffixes sourceSuffix h =>
    simp only [mappings, Option.getD_some, List.flatMap_singleton, Mapping.targets]
    cases Text.stripTail? source.toList sourceSuffix.toList with
    | none => exact Iff.rfl
    | some base => simp [h]

end Policy.SameTargets

namespace StaleRequest

variable {request : StaleRequest} {policy : Policy} {fs : FileSystem} {source : Source}
  {sources : List Source} {mappings mappings' : List Mapping} {targets others : List Path}
  {tolerance : Duration} {time : Time}

/-! ### The targets of one source -/

/-- A failure to find out the time of one of the targets. -/
def FailsAt (fs : FileSystem) (targets : List Path) (error : Error) : Prop :=
  ∃ target ∈ targets, ∃ fault, fs.Unreadable target fault ∧
    error = .unreadableTime target fault.message

theorem lines_anyOutdated : ((anyOutdated tolerance time targets).on fs).lines = [] := by
  induction targets with
  | nil => rfl
  | cons target targets ih =>
    rw [anyOutdated, Reading.on_bind]
    refine Reported.lines_bind_eq_nil lines_lastModified fun found => ?_
    split
    · rfl
    · exact ih

theorem failsAt_of_anyOutdated {error : Error}
    (h : ((anyOutdated tolerance time targets).on fs).outcome = .error error) :
    FailsAt fs targets error := by
  induction targets with
  | nil => cases h
  | cons target targets ih =>
    rw [anyOutdated, Reading.outcome_bind, bind_eq_error_iff] at h
    rcases h with hfirst | ⟨found, -, hrest⟩
    · obtain ⟨fault, hfault, rfl⟩ := unreadable_of_lastModified hfirst
      exact ⟨target, List.mem_cons_self, fault, hfault, rfl⟩
    · split at hrest
      · cases hrest
      · obtain ⟨other, hmem, hother⟩ := ih hrest
        exact ⟨other, List.mem_cons_of_mem target hmem, hother⟩

/-- Comparisons with the same targets give one verdict, unless one of them fails at a target. -/
theorem sameUnless_anyOutdated (h : ∀ target, target ∈ targets ↔ target ∈ others) :
    SameUnless (FailsAt fs targets) ((anyOutdated tolerance time targets).on fs)
      ((anyOutdated tolerance time others).on fs) := by
  cases hfirst : ((anyOutdated tolerance time targets).on fs).outcome with
  | error error => exact Or.inr (Or.inl ⟨error, hfirst, failsAt_of_anyOutdated hfirst⟩)
  | ok verdict =>
    cases hsecond : ((anyOutdated tolerance time others).on fs).outcome with
    | error error =>
      obtain ⟨target, hmem, hfault⟩ := failsAt_of_anyOutdated hsecond
      exact Or.inr (Or.inr ⟨error, hsecond, target, (h target).2 hmem, hfault⟩)
    | ok verdict' =>
      have hverdicts : verdict = verdict' := by
        rw [Bool.eq_iff_iff, anyOutdated_eq_true_iff hfirst, anyOutdated_eq_true_iff hsecond]
        simp only [h]
      refine Or.inl (Reported.eq_of_lines_of_outcome ?_ ?_)
      · rw [lines_anyOutdated, lines_anyOutdated]
      · rw [hfirst, hsecond, hverdicts]

/-! ### All sources -/

/-- The same search with another policy. -/
def withPolicy (request : StaleRequest) (policy : Policy) : StaleRequest := { request with policy }

/-- A failure to find out the time of a target of some source that is found. -/
def FailsAtTarget (request : StaleRequest) (fs : FileSystem) (error : Error) : Prop :=
  ∃ source, request.Scanned fs source ∧ FailsAt fs (request.targetsOf source) error

theorem sameUnless_isStale (h : request.policy.SameTargets policy)
    (hmappings : request.policy.mappings = some mappings) (hmappings' : policy.mappings = some mappings')
    (hscanned : request.Scanned fs source) :
    SameUnless (request.FailsAtTarget fs) ((request.isStale mappings source).on fs)
      (((request.withPolicy policy).isStale mappings' source).on fs) := by
  rw [isStale, isStale, Reading.on_bind, Reading.on_bind]
  refine (SameUnless.refl _).bind fun found _ => ?_
  cases found with
  | none => exact SameUnless.refl _
  | some time =>
    have hmem := h.mem_targets_iff request.targetDirectory source.relative
    rw [hmappings, hmappings', Option.getD_some, Option.getD_some] at hmem
    refine (sameUnless_anyOutdated hmem).mono fun error herror => ⟨source, hscanned, ?_⟩
    rwa [targetsOf, hmappings, Option.getD_some]

theorem sameUnless_staleAmong (h : request.policy.SameTargets policy)
    (hmappings : request.policy.mappings = some mappings) (hmappings' : policy.mappings = some mappings')
    (hscanned : ∀ source ∈ sources, request.Scanned fs source) :
    SameUnless (request.FailsAtTarget fs) ((request.staleAmong mappings sources).on fs)
      (((request.withPolicy policy).staleAmong mappings' sources).on fs) := by
  induction sources with
  | nil => exact SameUnless.refl _
  | cons first sources ih =>
    obtain ⟨hfirst, hsources⟩ := List.forall_mem_cons.1 hscanned
    rw [staleAmong, staleAmong, Reading.on_bind, Reading.on_bind]
    refine (sameUnless_isStale h hmappings hmappings' hfirst).bind fun verdict _ => ?_
    rw [Reading.on_bind, Reading.on_bind]
    exact (ih hsources).bind fun rest _ => SameUnless.refl _

theorem staleUnder_eq (hmappings : request.policy.mappings = some mappings)
    (selection : Glob.Selection) (root : Path) : request.staleUnder selection root = (do
      let sources ← Source.scan selection root
      let stale ← request.staleAmong mappings sources
      logFound "stale sources" root (stale.map Source.path)
      return stale.map Source.path) := by
  rw [staleUnder, hmappings]

theorem sameUnless_staleUnder (h : request.policy.SameTargets policy) {selection : Glob.Selection}
    (hselection : request.selection = .ok selection) {root : Path}
    (hroot : root ∈ request.sourceRoots) :
    SameUnless (request.FailsAtTarget fs) ((request.staleUnder selection root).on fs)
      (((request.withPolicy policy).staleUnder selection root).on fs) := by
  obtain ⟨mappings, mappings', hmappings, hmappings'⟩ := h.exists_mappings
  rw [staleUnder_eq hmappings, staleUnder_eq hmappings', Reading.on_bind, Reading.on_bind]
  refine (SameUnless.refl _).bind fun sources hsources => ?_
  rw [← sourcesUnder_eq hselection] at hsources
  have hscanned : ∀ source ∈ sources, request.Scanned fs source :=
    fun source hmem => ⟨root, hroot, sources, hsources, hmem⟩
  rw [Reading.on_bind, Reading.on_bind]
  exact (sameUnless_staleAmong h hmappings hmappings' hscanned).bind fun stale _ => SameUnless.refl _

theorem sameUnless_staleSources (h : request.policy.SameTargets policy) :
    SameUnless (request.FailsAtTarget fs) (request.staleSources.on fs)
      ((request.withPolicy policy).staleSources.on fs) := by
  rw [staleSources, staleSources, Reading.on_bind, Reading.on_bind]
  refine (SameUnless.refl _).bind fun selection hselection => ?_
  rw [Reading.outcome_ofExcept] at hselection
  rw [Reading.on_bind, Reading.on_bind]
  refine SameUnless.bind (Reading.sameUnless_mapM fun root hroot => ?_) fun found _ => SameUnless.refl _
  exact sameUnless_staleUnder h hselection hroot

/-! ### Main result -/

/-- Two searches that differ in the order or the repetition of the targets agree. If the time of every
target can be found out, they end alike, be it with a set or with a failure, and have the same log. In
any case, if both succeed, they have the same set and the same log; and if only one of them succeeds,
the other has failed at a target whose time cannot be found out. -/
theorem staleSources_of_sameTargets (h : request.policy.SameTargets policy) (fs : FileSystem) :
    ((∀ source, request.Scanned fs source →
        ∀ target ∈ request.targetsOf source, fs.Readable target) →
      request.staleSources.on fs = (request.withPolicy policy).staleSources.on fs) ∧
    (∀ set set', (request.staleSources.on fs).outcome = .ok set →
      ((request.withPolicy policy).staleSources.on fs).outcome = .ok set' →
      set = set' ∧ request.staleSources.on fs = (request.withPolicy policy).staleSources.on fs) ∧
    ∀ set error, (request.staleSources.on fs).outcome = .ok set →
      ((request.withPolicy policy).staleSources.on fs).outcome = .error error →
      request.FailsAtTarget fs error := by
  have hagree : SameUnless (request.FailsAtTarget fs) (request.staleSources.on fs)
    ((request.withPolicy policy).staleSources.on fs) := sameUnless_staleSources h
  refine ⟨?_, ?_, ?_⟩
  · intro hreadable
    apply hagree.eq_of_not
    rintro error ⟨source, hscanned, target, htarget, fault, hfault, -⟩
    exact hfault.not_readable (hreadable source hscanned target htarget)
  · intro set set' hset hset'
    have heq := hagree.eq_of_ok hset hset'
    refine ⟨?_, heq⟩
    rw [← heq, hset] at hset'
    exact Except.ok.inj hset'
  · intro set error hset herror
    exact hagree.excused_of_error hset herror

/-- Two targets can be read, and the third one would be below a file. The order of the two makes no
difference. If an outdated target comes first the third is not looked at, however often the first is
named; if the third comes first, the search fails. -/
theorem staleSources_past_unreadable_target :
    let fs : FileSystem := [
      FileSystem.Change.write ⟨"src/A.java"⟩ .empty (.afterEpoch 5 (by decide)),
      .write ⟨"out/old"⟩ .empty (.afterEpoch 3 (by decide)),
      .write ⟨"out/new"⟩ .empty (.afterEpoch 9 (by decide))].foldl FileSystem.Change.apply
        (.empty (.afterEpoch 0 (by decide)))
    let request (names : List String) : StaleRequest := {
      sourceRoots := [⟨"src"⟩], targetDirectory := ⟨"out"⟩, policy := .explicit ".java" names }
    let set : PathSet := ⟨[⟨"src/A.java"⟩]⟩
    (request ["old", "new/x"]).policy.SameTargets (request ["new/x", "old"]).policy ∧
    (request ["new", "old"]).staleSources.on fs = (request ["old", "new", "old"]).staleSources.on fs ∧
    ((request ["old", "new/x"]).staleSources.on fs).outcome = .ok set ∧
    (request ["old", "new/x"]).staleSources.on fs
      = (request ["old", "old", "new/x"]).staleSources.on fs ∧
    ∃ error, ((request ["new/x", "old"]).staleSources.on fs).outcome = .error error ∧
      (request ["old", "new/x"]).FailsAtTarget fs error := by
  intro fs request set
  have hnamed : ∀ names others : List String, (∀ name, name ∈ names ↔ name ∈ others) →
      (request names).policy.SameTargets (request others).policy :=
    fun names others h => .explicit ".java" h
  have hsources : (request ["new", "old"]).sourcesUnder fs ⟨"src"⟩
      = .ok [⟨⟨"src/A.java"⟩, "A.java"⟩] := by
    apply eq_ok_of_toOption
    decide +kernel
  have htargets : (request ["new", "old"]).targetsOf ⟨⟨"src/A.java"⟩, "A.java"⟩
      = [⟨"out/new"⟩, ⟨"out/old"⟩] := by decide +kernel
  have htimes : fs.modified? ⟨"out/new"⟩ = some (.afterEpoch 9 (by decide)) ∧
      fs.modified? ⟨"out/old"⟩ = some (.afterEpoch 3 (by decide)) := by decide +kernel
  have hreadable : ∀ source, (request ["new", "old"]).Scanned fs source →
      ∀ target ∈ (request ["new", "old"]).targetsOf source, fs.Readable target := by
    rintro source ⟨root, hroot, sources, hunder, hmem⟩ target htarget
    obtain rfl := List.mem_singleton.1 hroot
    obtain rfl := Except.ok.inj (hsources.symm.trans hunder)
    obtain rfl := List.mem_singleton.1 hmem
    rw [htargets] at htarget
    rcases List.mem_pair.1 htarget with rfl | rfl
    · exact Or.inr ⟨_, htimes.1⟩
    · exact Or.inr ⟨_, htimes.2⟩
  have hok : ((request ["old", "new/x"]).staleSources.on fs).outcome = .ok set := by
    apply eq_ok_of_toOption
    decide +kernel
  have hok' : ((request ["old", "old", "new/x"]).staleSources.on fs).outcome = .ok set := by
    apply eq_ok_of_toOption
    decide +kernel
  have hfailed : ((request ["new/x", "old"]).staleSources.on fs).outcome.toOption = none := by
    decide +kernel
  obtain ⟨hsame, -, -⟩ := staleSources_of_sameTargets
    (hnamed ["new", "old"] ["old", "new", "old"] (by simp [or_comm])) fs
  obtain ⟨-, hsame', -⟩ := staleSources_of_sameTargets
    (hnamed ["old", "new/x"] ["old", "old", "new/x"] (by simp)) fs
  have hreversed := hnamed ["old", "new/x"] ["new/x", "old"] (by simp [or_comm])
  obtain ⟨-, -, hfails⟩ := staleSources_of_sameTargets hreversed fs
  refine ⟨hreversed, hsame hreadable, hok, (hsame' set set hok hok').2, ?_⟩
  cases houtcome : ((request ["new/x", "old"]).staleSources.on fs).outcome with
  | ok found =>
    rw [houtcome] at hfailed
    cases hfailed
  | error error => exact ⟨error, rfl, hfails set error hok houtcome⟩

end StaleRequest

end Rebuild
