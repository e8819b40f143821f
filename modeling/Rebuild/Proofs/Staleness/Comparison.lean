import Mathlib.Data.Finset.Max
import Rebuild.Proofs.LastModified
import Rebuild.Proofs.Staleness.Targets
import Rebuild.Proofs.Time
import Rebuild.Staleness.Verdict

/-!
# When a source is stale

A source is stale if one of its targets is missing, or lies with the tolerance still before the
source. `anyOutdated` stops at the first such target and so may leave others unread, but when it
stops there is one, and when it runs to the end there is none. So it does not matter in which order
the targets are read, as long as they can be.
-/

namespace Rebuild

namespace FileSystem

variable {fs : FileSystem} {path : Path} {tolerance : Duration} {sourceTime : Time}

/-- A target is missing, or even with the tolerance before the source. -/
def Outdated (fs : FileSystem) (tolerance : Duration) (sourceTime : Time) (target : Path) : Prop :=
  fs.status target = .error .notFound ∨
    ∃ time, fs.modified? target = some time
      ∧ time.toNanos + tolerance.toNanos < sourceTime.toNanos

/-- A target is there, and with the tolerance not before the source. -/
def Fresh (fs : FileSystem) (tolerance : Duration) (sourceTime : Time) (target : Path) : Prop :=
  ∃ time, fs.modified? target = some time
    ∧ sourceTime.toNanos ≤ time.toNanos + tolerance.toNanos

theorem Fresh.not_outdated (h : fs.Fresh tolerance sourceTime path) :
    ¬ fs.Outdated tolerance sourceTime path := by
  obtain ⟨time, htime, hle⟩ := h
  rintro (hmissing | ⟨time', htime', hlt⟩)
  · obtain ⟨status, hstatus, _⟩ := modified?_eq_some_iff.1 htime
    rw [hmissing] at hstatus
    cases hstatus
  · obtain rfl := Option.some.inj (htime.symm.trans htime')
    omega

end FileSystem

/-- The suffix of the sources that have targets. -/
def Policy.sourceSuffix? : Policy → Option String
  | .explicit sourceSuffix _ => some sourceSuffix
  | .suffixes sourceSuffix _ => some sourceSuffix
  | .always => none

namespace StaleRequest

variable {request : StaleRequest} {fs : FileSystem} {source : Source}
  {mappings : List Mapping} {targets : List Path} {tolerance : Duration} {sourceTime : Time}

/-! ### One source -/

theorem outcome_anyOutdated_cons {target : Path} {verdict : Bool} :
    ((anyOutdated tolerance sourceTime (target :: targets)).on fs).outcome = .ok verdict ↔
      (fs.Outdated tolerance sourceTime target ∧ verdict = true) ∨
      (fs.Fresh tolerance sourceTime target ∧
        ((anyOutdated tolerance sourceTime targets).on fs).outcome = .ok verdict) := by
  rw [anyOutdated, Reading.outcome_bind, bind_eq_ok_iff]
  constructor
  · rintro ⟨answer, hanswer, hverdict⟩
    cases answer with
    | none =>
      exact Or.inl ⟨Or.inl (outcome_lastModified_eq_none_iff.1 hanswer),
        (Except.ok.inj hverdict).symm⟩
    | some time =>
      have htime := outcome_lastModified_eq_some_iff.1 hanswer
      split at hverdict
      case isTrue hnewer =>
        exact Or.inl ⟨Or.inr ⟨time, htime, Time.isNewer_some_iff.1 hnewer⟩,
          (Except.ok.inj hverdict).symm⟩
      case isFalse hnewer =>
        rw [Time.isNewer_some_iff] at hnewer
        exact Or.inr ⟨⟨time, htime, Int.not_lt.1 hnewer⟩, hverdict⟩
  · rintro (⟨hmissing | ⟨time, htime, hlt⟩, rfl⟩ | ⟨⟨time, htime, hle⟩, hverdict⟩)
    · exact ⟨none, outcome_lastModified_eq_none_iff.2 hmissing, rfl⟩
    · refine ⟨some time, outcome_lastModified_eq_some_iff.2 htime, ?_⟩
      rw [if_pos (Time.isNewer_some_iff.2 hlt)]
      rfl
    · refine ⟨some time, outcome_lastModified_eq_some_iff.2 htime, ?_⟩
      rwa [if_neg (by rw [Time.isNewer_some_iff]; omega)]

theorem outcome_anyOutdated_eq_false_iff :
    ((anyOutdated tolerance sourceTime targets).on fs).outcome = .ok false
      ↔ ∀ target ∈ targets, fs.Fresh tolerance sourceTime target := by
  induction targets with
  | nil => simp [anyOutdated]
  | cons target targets ih => simp [outcome_anyOutdated_cons, ih]

theorem exists_outdated_of_anyOutdated
    (h : ((anyOutdated tolerance sourceTime targets).on fs).outcome = .ok true) :
    ∃ target ∈ targets, fs.Outdated tolerance sourceTime target := by
  induction targets with
  | nil => cases h
  | cons target targets ih =>
    rcases outcome_anyOutdated_cons.1 h with ⟨houtdated, _⟩ | ⟨_, hrest⟩
    · exact ⟨target, List.mem_cons_self, houtdated⟩
    · obtain ⟨other, hmem, hother⟩ := ih hrest
      exact ⟨other, List.mem_cons_of_mem target hmem, hother⟩

/-- A comparison that comes to an end tells whether there is an outdated target. -/
theorem anyOutdated_eq_true_iff {verdict : Bool}
    (h : ((anyOutdated tolerance sourceTime targets).on fs).outcome = .ok verdict) :
    verdict = true ↔ ∃ target ∈ targets, fs.Outdated tolerance sourceTime target := by
  cases verdict with
  | true => exact iff_of_true rfl (exists_outdated_of_anyOutdated h)
  | false =>
    refine iff_of_false Bool.false_ne_true ?_
    rintro ⟨target, hmem, houtdated⟩
    exact (outcome_anyOutdated_eq_false_iff.1 h target hmem).not_outdated houtdated

/-- The targets that a source is compared with. -/
def targetsOf (request : StaleRequest) (source : Source) : List Path :=
  (request.policy.mappings.getD []).flatMap (Mapping.targets request.targetDirectory source.relative)

/-- A source has an outdated target. -/
def Stale (request : StaleRequest) (fs : FileSystem) (source : Source) : Prop :=
  ∃ time, fs.modified? source.path = some time ∧
    ∃ target ∈ request.targetsOf source, fs.Outdated request.tolerance time target

theorem outcome_isStale_eq_ok_iff (hmappings : request.policy.mappings = some mappings)
    {verdict : Bool} :
    ((request.isStale mappings source).on fs).outcome = .ok verdict ↔
      ∃ time, fs.modified? source.path = some time ∧
        ((anyOutdated request.tolerance time (request.targetsOf source)).on fs).outcome
          = .ok verdict := by
  rw [targetsOf, hmappings, Option.getD_some, isStale, Reading.outcome_bind, bind_eq_ok_iff]
  constructor
  · rintro ⟨answer, hanswer, hverdict⟩
    cases answer with
    | none => cases hverdict
    | some time => exact ⟨time, outcome_lastModified_eq_some_iff.1 hanswer, hverdict⟩
  · rintro ⟨time, htime, hverdict⟩
    exact ⟨some time, outcome_lastModified_eq_some_iff.2 htime, hverdict⟩

theorem isStale_eq_true_iff (hmappings : request.policy.mappings = some mappings) {verdict : Bool}
    (h : ((request.isStale mappings source).on fs).outcome = .ok verdict) :
    verdict = true ↔ request.Stale fs source := by
  obtain ⟨time, htime, hverdict⟩ := (outcome_isStale_eq_ok_iff hmappings).1 h
  rw [anyOutdated_eq_true_iff hverdict]
  constructor
  · intro houtdated
    exact ⟨time, htime, houtdated⟩
  · rintro ⟨time', htime', houtdated⟩
    rwa [Option.some.inj (htime.symm.trans htime')]

/-! ### Targets by policy -/

/-- The oldest of the times of those targets that have one. -/
def Oldest (fs : FileSystem) (targets : List Path) (oldest : Time) : Prop :=
  (∃ target ∈ targets, fs.modified? target = some oldest) ∧
    ∀ target ∈ targets, ∀ time, fs.modified? target = some time → oldest.toNanos ≤ time.toNanos

theorem exists_oldest {target : Path} {time : Time} (hmem : target ∈ targets)
    (htime : fs.modified? target = some time) : ∃ oldest, Oldest fs targets oldest := by
  have hne : (targets.filterMap fs.modified?).toFinset.Nonempty :=
    ⟨time, List.mem_toFinset.2 (List.mem_filterMap.2 ⟨target, hmem, htime⟩)⟩
  obtain ⟨oldest, holdest, hle⟩ := Finset.exists_min_image _ Time.toNanos hne
  refine ⟨oldest, List.mem_filterMap.1 (List.mem_toFinset.1 holdest), ?_⟩
  intro other hother time' htime'
  exact hle time' (List.mem_toFinset.2 (List.mem_filterMap.2 ⟨other, hother, htime'⟩))

/-- Among several targets it is enough to look at the oldest one, if none is missing. -/
theorem exists_outdated_iff_oldest :
    (∃ target ∈ targets, fs.Outdated tolerance sourceTime target) ↔
      (∃ target ∈ targets, fs.status target = .error .notFound) ∨
      ∃ oldest, Oldest fs targets oldest ∧
        oldest.toNanos + tolerance.toNanos < sourceTime.toNanos := by
  constructor
  · rintro ⟨target, hmem, hmissing | ⟨time, htime, hlt⟩⟩
    · exact Or.inl ⟨target, hmem, hmissing⟩
    · obtain ⟨oldest, holdest⟩ := exists_oldest hmem htime
      have hle := holdest.2 target hmem time htime
      exact Or.inr ⟨oldest, holdest, by omega⟩
  · rintro (⟨target, hmem, hmissing⟩ | ⟨oldest, ⟨⟨target, hmem, htime⟩, _⟩, hlt⟩)
    · exact ⟨target, hmem, Or.inl hmissing⟩
    · exact ⟨target, hmem, Or.inr ⟨oldest, htime, hlt⟩⟩

theorem targetsOf_explicit {sourceSuffix : String} {names : List String}
    (hpolicy : request.policy = .explicit sourceSuffix names) :
    request.targetsOf source = if sourceSuffix.toList <:+ source.relative.toList
      then names.map fun name => request.targetDirectory.join ⟨name⟩ else [] := by
  rw [targetsOf, hpolicy]
  simp only [Policy.mappings, Option.getD_some, List.flatMap_map, Mapping.targets,
    List.isSuffixOf_iff_suffix]
  split
  case isTrue => exact List.flatMap_pure_eq_map _ _
  case isFalse => simp

theorem targetsOf_suffixes {sourceSuffix : String} {tails : List String}
    (hpolicy : request.policy = .suffixes sourceSuffix tails)
    (hsuffix : ¬ sourceSuffix.toList <:+ source.relative.toList) :
    request.targetsOf source = [] := by
  rw [targetsOf, hpolicy]
  simp [Policy.mappings, Mapping.targets_of_not_suffix hsuffix]

theorem targetsOf_eq_nil {sourceSuffix : String}
    (hpolicy : request.policy.sourceSuffix? = some sourceSuffix)
    (hsuffix : ¬ sourceSuffix.toList <:+ source.relative.toList) :
    request.targetsOf source = [] := by
  cases hcase : request.policy with
  | explicit other names =>
    rw [hcase] at hpolicy
    obtain rfl := Option.some.inj hpolicy
    rw [targetsOf_explicit hcase, if_neg hsuffix]
  | suffixes other tails =>
    rw [hcase] at hpolicy
    obtain rfl := Option.some.inj hpolicy
    exact targetsOf_suffixes hcase hsuffix
  | always =>
    rw [hcase] at hpolicy
    cases hpolicy

end StaleRequest

end Rebuild
