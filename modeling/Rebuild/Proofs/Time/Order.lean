import Mathlib
import Rebuild.Proofs.Time

/-!
# The order of times

Times lie on a line of nanoseconds, and so do files by their times, with the files that are not there
below all others. Being newer is to lie further on that line by more than the tolerance. Without a
tolerance it is the order of the line, and no two different times are at one place.
-/

namespace Rebuild.Time

theorem toNanos_injective : Function.Injective toNanos := by
  intro t u h
  have ht := t.nanos_lt
  have hu := u.nanos_lt
  simp only [toNanos, nanosPerSecond] at h ht hu
  have hseconds : t.seconds = u.seconds := by omega
  have hnanos : t.nanos = u.nanos := by omega
  cases t
  cases u
  cases hseconds
  cases hnanos
  rfl

/-- Where a file lies by its time. -/
def place : Option Time → WithBot Int
  | none => ⊥
  | some time => time.toNanos

theorem place_injective : Function.Injective place := by
  intro t u h
  cases t with
  | none =>
    cases u with
    | none => rfl
    | some u => exact absurd h.symm (WithBot.coe_ne_bot)
  | some t =>
    cases u with
    | none => exact absurd h (WithBot.coe_ne_bot)
    | some u => exact congrArg some (toNanos_injective (WithBot.coe_inj.1 h))

variable {candidate reference : Option Time}

theorem isNewer_zero_iff :
    isNewer candidate reference .zero ↔ place reference < place candidate := by
  cases candidate with
  | none => simp [isNewer, place]
  | some time =>
    cases reference with
    | none => simp [isNewer, place]
    | some earlier => simp [isNewer_some_iff, place, Duration.zero, Duration.toNanos]

/-- Being newer is an order in which any two different times can be compared. -/
theorem isStrictTotalOrder_isNewer :
    IsStrictTotalOrder (Option Time) fun older newer => isNewer newer older .zero :=
  RelEmbedding.isStrictTotalOrder ⟨⟨place, place_injective⟩, isNewer_zero_iff.symm⟩

/-! ### Main result -/

/-- A file is newer than another one by more than a tolerance exactly if it is there, and the other one
is not, or the time of the other one and the tolerance come to less than its own, as numbers without
bounds. Without a tolerance this orders all times, and a file that is not there comes before all that
are. -/
theorem isNewer_exact :
    (∀ candidate reference tolerance, isNewer candidate reference tolerance ↔
      ∃ time, candidate = some time ∧ (reference = none ∨ ∃ earlier, reference = some earlier ∧
        earlier.toNanos + tolerance.toNanos < time.toNanos)) ∧
    IsStrictTotalOrder (Option Time) (fun older newer => isNewer newer older .zero) ∧
    ∀ time, isNewer (some time) none .zero := by
  refine ⟨?_, isStrictTotalOrder_isNewer, fun time => rfl⟩
  intro candidate reference tolerance
  cases candidate with
  | none => simp [isNewer]
  | some time =>
    cases reference with
    | none => simp [isNewer]
    | some earlier => simp [isNewer_some_iff]

/-- From the first instant a tolerance of more seconds than a time can have leads to the last one, and
one nanosecond less makes a difference there; from the epoch it leads past every time. -/
example :
    let first : Time := ⟨-0x8000000000000000, 0, by decide, by decide, by decide⟩
    let last : Time := ⟨0x7FFFFFFFFFFFFFFF, 999999999, by decide, by decide, by decide⟩
    let longest : Duration := ⟨0xFFFFFFFFFFFFFFFF, 999999999, by decide, by decide⟩
    let shorter : Duration := ⟨0xFFFFFFFFFFFFFFFF, 999999998, by decide, by decide⟩
    isNewer (some last) (some first) shorter ∧ ¬ isNewer (some last) (some first) longest ∧
      ¬ isNewer (some last) (some (afterEpoch 0 (by decide))) shorter := by
  decide

end Rebuild.Time
