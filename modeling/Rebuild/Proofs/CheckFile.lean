import Rebuild.CheckFile
import Rebuild.FileSystem.Change
import Rebuild.Proofs.LastModified
import Rebuild.Proofs.Time

/-!
# Steps that are checked by a file

The check stands around a step and does nothing to what the step does. It looks at the file before,
and if it cannot, the step is not run. Else the step is run, and only what it says of its success is
passed on with a condition. The condition is that the file is there, and that it was not there before
or has a later time than it had: being written with the same time, or with an earlier one, is not
enough.

So a checked step is the step with another outcome, `checked_of_readable`, and nothing more has to be
known of the step. It may change the file system in any way, and it may be a checked step itself.
-/

namespace Rebuild

/-- Between two moments a file has come to be or has got a later time. -/
def FileSystem.Renewed (before after : FileSystem) (path : Path) : Prop :=
  ∃ time, after.modified? path = some time ∧
    (before.status path = .error .notFound ∨
      ∃ earlier, before.modified? path = some earlier ∧ earlier.toNanos < time.toNanos)

variable {σ α : Type} {before after fs : FileSystem} {path : Path} {fault : FileSystem.Fault}
  {step : BuildStep σ α} {memory : σ}

theorem FileSystem.Readable.isNewer_iff_renewed (h : before.Readable path) :
    Time.isNewer (after.modified? path) (before.modified? path) .zero ↔ before.Renewed after path := by
  have hzero : (Duration.zero.toNanos : Int) = 0 := rfl
  cases hafter : after.modified? path with
  | none => simp [Time.isNewer, FileSystem.Renewed, hafter]
  | some time =>
    rcases h with hmissing | ⟨earlier, hearlier⟩
    · have hbefore : before.modified? path = none := by
        rw [FileSystem.modified?, hmissing]
        rfl
      simp [Time.isNewer, FileSystem.Renewed, hafter, hbefore, hmissing]
    · have hpresent : before.status path ≠ .error .notFound := by
        intro hmissing
        rw [FileSystem.modified?, hmissing] at hearlier
        cases hearlier
      rw [hearlier, Time.isNewer_some_iff, hzero, Int.add_zero]
      simp [FileSystem.Renewed, hafter, hearlier, hpresent]

namespace CheckFile

theorem outcome_snapshot : ((snapshot path).on fs).outcome
    = (fun found => ⟨path, found⟩) <$> ((lastModified path).on fs).outcome := by
  rw [snapshot, Reading.outcome_bind, map_eq_pure_bind]
  rfl

theorem outcome_verify_of_readable (h : fs.Readable path) (found : Option Time) :
    ((verify ⟨path, found⟩).on fs).outcome = if Time.isNewer (fs.modified? path) found .zero
      then .ok () else .error (.checkFileUnchanged path) := by
  rw [verify, hasChanged, Reading.outcome_bind, Reading.outcome_bind,
    outcome_lastModified_of_readable h, ok_bind, Reading.outcome_pure, ok_bind]
  split
  · rfl
  · rfl

theorem outcome_verify_of_unreadable (h : fs.Unreadable path fault) (found : Option Time) :
    ((verify ⟨path, found⟩).on fs).outcome = .error (.unreadableTime path fault.message) := by
  rw [verify, hasChanged, Reading.outcome_bind, Reading.outcome_bind,
    outcome_lastModified_of_unreadable h]
  rfl

end CheckFile

namespace BuildStep

/-- What the check of a file says after a step, if its time before the step was found out. -/
def verdict (path : Path) (before after : FileSystem) : Except Error Unit :=
  ((CheckFile.mk path (before.modified? path)).verify.on after).outcome

theorem verdict_eq_ok_iff (h : before.Readable path) :
    verdict path before after = .ok () ↔ before.Renewed after path := by
  rw [verdict]
  rcases after.readable_or_unreadable path with hafter | ⟨fault, hafter⟩
  · rw [CheckFile.outcome_verify_of_readable hafter, ← h.isNewer_iff_renewed]
    split
    case isTrue hnewer => exact iff_of_true rfl hnewer
    case isFalse hnewer => exact iff_of_false (by simp) hnewer
  · rw [CheckFile.outcome_verify_of_unreadable hafter]
    refine iff_of_false (by simp) ?_
    rintro ⟨time, htime, -⟩
    exact hafter.not_readable (Or.inr ⟨time, htime⟩)

theorem verdict_of_unreadable (h : after.Unreadable path fault) :
    verdict path before after = .error (.unreadableTime path fault.message) :=
  CheckFile.outcome_verify_of_unreadable h _

theorem verdict_of_not_renewed (h : before.Readable path) (hafter : after.Readable path)
    (hrenewed : ¬ before.Renewed after path) :
    verdict path before after = .error (.checkFileUnchanged path) := by
  rw [verdict, CheckFile.outcome_verify_of_readable hafter,
    if_neg (mt h.isNewer_iff_renewed.1 hrenewed)]

theorem checked_of_unreadable (h : fs.Unreadable path fault) :
    checked (some path) step memory fs = (.error (.unreadableTime path fault.message), memory, fs) := by
  rw [checked]
  simp only [CheckFile.outcome_snapshot, outcome_lastModified_of_unreadable h]
  rfl

/-- The check touches only the outcome of a step, and only if that is a success. -/
theorem checked_of_readable (h : fs.Readable path) : checked (some path) step memory fs =
    ((step memory fs).1 >>= fun value =>
      (fun _ => value) <$> verdict path fs (step memory fs).2.2, (step memory fs).2) := by
  have hsnapshot : ((CheckFile.snapshot path).on fs).outcome = .ok ⟨path, fs.modified? path⟩ := by
    rw [CheckFile.outcome_snapshot, outcome_lastModified_of_readable h]
    rfl
  rw [checked]
  simp only [hsnapshot, verdict]
  obtain ⟨outcome, memory', fs'⟩ := step memory fs
  cases outcome with
  | error error => rfl
  | ok value =>
    dsimp only
    cases ((CheckFile.mk path (fs.modified? path)).verify.on fs').outcome with
    | error error => rfl
    | ok done => rfl

theorem checked_eq_ok_iff {value : α} : (checked (some path) step memory fs).1 = .ok value ↔
    fs.Readable path ∧ (step memory fs).1 = .ok value ∧ fs.Renewed (step memory fs).2.2 path := by
  rcases fs.readable_or_unreadable path with hreadable | ⟨fault, hfault⟩
  · rw [checked_of_readable hreadable, and_iff_right hreadable, bind_eq_ok_iff,
      ← verdict_eq_ok_iff hreadable]
    simp only [map_eq_ok_iff]
    constructor
    · rintro ⟨value', hvalue, ⟨⟩, hverdict, rfl⟩
      exact ⟨hvalue, hverdict⟩
    · rintro ⟨hvalue, hverdict⟩
      exact ⟨value, hvalue, (), hverdict, rfl⟩
  · rw [checked_of_unreadable hfault]
    exact iff_of_false (by simp) fun h => hfault.not_readable h.1

theorem checked_of_error {error : Error} (h : fs.Readable path)
    (herror : (step memory fs).1 = .error error) :
    checked (some path) step memory fs = step memory fs := by
  rw [checked_of_readable h]
  apply Prod.ext
  · rw [herror]
    rfl
  · rfl

theorem outcome_checked_of_ok {value : α} (h : fs.Readable path)
    (hvalue : (step memory fs).1 = .ok value) : (checked (some path) step memory fs).1
      = (fun _ => value) <$> verdict path fs (step memory fs).2.2 := by
  rw [checked_of_readable h, hvalue, ok_bind]

/-- A step that counts how often it is run. -/
def counted (step : BuildStep σ α) : BuildStep (Nat × σ) α := fun (runs, memory) fs =>
  ((step memory fs).1, (runs + 1, (step memory fs).2.1), (step memory fs).2.2)

/-! ### Main result -/

/-- A checked step succeeds exactly if the time of the file could be found out before, the step
succeeds, and the file has come to be or has got a later time. If the time could not be found out
before, that is the failure, and the step is not run. Else the step is run once and what it leaves
stays as it is; its own failure is the failure of the whole, whatever has become of the file, and
after a success the file decides. -/
theorem checked_exact (path : Path) (step : BuildStep σ α) (memory : σ) (fs : FileSystem) :
    let own := step memory fs
    let result := checked (some path) step memory fs
    (∀ value, result.1 = .ok value ↔
      fs.Readable path ∧ own.1 = .ok value ∧ fs.Renewed own.2.2 path) ∧
    (∀ fault, fs.Unreadable path fault →
      result = (.error (.unreadableTime path fault.message), memory, fs) ∧
      ∀ runs, (checked (some path) step.counted (runs, memory) fs).2 = ((runs, memory), fs)) ∧
    (fs.Readable path →
      result.2 = own.2 ∧
      (∀ runs, (checked (some path) step.counted (runs, memory) fs).2
        = ((runs + 1, own.2.1), own.2.2)) ∧
      (∀ error, own.1 = .error error → result = own) ∧
      ∀ value, own.1 = .ok value →
        (∀ fault, own.2.2.Unreadable path fault →
          result.1 = .error (.unreadableTime path fault.message)) ∧
        (own.2.2.Readable path → ¬ fs.Renewed own.2.2 path →
          result.1 = .error (.checkFileUnchanged path))) := by
  intro own result
  refine ⟨fun value => checked_eq_ok_iff, ?_, ?_⟩
  · intro fault hfault
    refine ⟨checked_of_unreadable hfault, fun runs => ?_⟩
    rw [checked_of_unreadable hfault]
  · intro hreadable
    have hresult : result = _ := checked_of_readable hreadable
    refine ⟨?_, fun runs => ?_, fun error => checked_of_error hreadable, ?_⟩
    · rw [hresult]
    · rw [checked_of_readable hreadable]
      rfl
    · intro value hvalue
      have houtcome : result.1 = (fun _ => value) <$> verdict path fs own.2.2 :=
        outcome_checked_of_ok hreadable hvalue
      refine ⟨fun fault hfault => ?_, fun hafter hrenewed => ?_⟩
      · rw [houtcome, verdict_of_unreadable hfault]
        rfl
      · rw [houtcome, verdict_of_not_renewed hreadable hafter hrenewed]
        rfl

/-- A file is written again by a step that is checked by it twice over. It succeeds if the file gets a
later time, and it does not if the file gets the time that it had. -/
theorem checked_of_rewritten_file :
    let path : Path := ⟨"out"⟩
    let rewrite (seconds : Nat) (h : (seconds : Int) < 0x8000000000000000) : BuildStep Unit Nat :=
      fun memory fs =>
        (.ok seconds, memory, FileSystem.Change.apply fs (.write path .empty (.afterEpoch seconds h)))
    let fs : FileSystem := FileSystem.Change.apply (.empty (.afterEpoch 0 (by decide)))
      (.write path .empty (.afterEpoch 3 (by decide)))
    let later := checked (some path) (rewrite 5 (by decide))
    let same := rewrite 3 (by decide)
    fs.Readable path ∧ (later () fs).1 = .ok 5 ∧ fs.Renewed (later () fs).2.2 path ∧
    (checked (some path) later () fs).1 = .ok 5 ∧
    (checked (some path) same () fs).2 = (same () fs).2 ∧
    (checked (some path) same () fs).1 = .error (.checkFileUnchanged path) := by
  intro path rewrite fs later same
  have hbefore : fs.modified? path = some (.afterEpoch 3 (by decide)) := by decide +kernel
  have hlater : (later () fs).2.2.modified? path = some (.afterEpoch 5 (by decide)) := by
    decide +kernel
  have hsame : (same () fs).2.2.modified? path = some (.afterEpoch 3 (by decide)) := by
    decide +kernel
  have hok : (later () fs).1 = .ok 5 := by
    apply eq_ok_of_toOption
    decide +kernel
  have hreadable : fs.Readable path := Or.inr ⟨_, hbefore⟩
  have hrenewed : fs.Renewed (later () fs).2.2 path :=
    ⟨_, hlater, Or.inr ⟨_, hbefore, by decide⟩⟩
  have hnot : ¬ fs.Renewed (same () fs).2.2 path := by
    rintro ⟨time, htime, hmissing | ⟨earlier, hearlier, hlt⟩⟩
    · rw [FileSystem.modified?, hmissing] at hbefore
      cases hbefore
    · obtain rfl := Option.some.inj (hsame.symm.trans htime)
      obtain rfl := Option.some.inj (hbefore.symm.trans hearlier)
      exact absurd hlt (by decide)
  obtain ⟨htwice, -, -⟩ := checked_exact path later () fs
  obtain ⟨hleft, -, -, hsuccess⟩ := (checked_exact path same () fs).2.2 hreadable
  exact ⟨hreadable, hok, hrenewed, (htwice 5).2 ⟨hreadable, hok, hrenewed⟩, hleft,
    (hsuccess 3 rfl).2 (Or.inr ⟨_, hsame⟩) hnot⟩

/-- To check by a file what is checked by it already makes no difference. -/
theorem checked_checked (path : Path) (step : BuildStep σ α) :
    checked (some path) (checked (some path) step) = checked (some path) step := by
  funext memory fs
  rcases fs.readable_or_unreadable path with hreadable | ⟨fault, hfault⟩
  · rw [checked_of_readable hreadable, checked_of_readable hreadable]
    dsimp only
    cases (step memory fs).1 with
    | error error => rfl
    | ok value =>
      rw [ok_bind]
      cases verdict path fs (step memory fs).2.2 with
      | error error => rfl
      | ok done => rfl
  · rw [checked_of_unreadable hfault, checked_of_unreadable hfault]

end BuildStep

end Rebuild
