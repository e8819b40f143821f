import Rebuild.Time

/-!
# Times as numbers

Seconds and nanoseconds are two digits of one number, and comparing and adding in two digits with a
carry is comparing and adding that number. A sum that has no time lies after every time, because a
duration is never negative; so the answer that nothing is newer than such a sum is the answer that
exact arithmetic gives.
-/

namespace Rebuild.Time

theorem ge_of_nat (seconds : Nat) : -0x8000000000000000 ≤ (seconds : Int) := by
  omega

theorem zero_lt_nanosPerSecond : 0 < nanosPerSecond := by
  decide

/-- So many seconds after the epoch. -/
def afterEpoch (seconds : Nat) (h : (seconds : Int) < 0x8000000000000000) : Time :=
  ⟨seconds, 0, ge_of_nat seconds, h, zero_lt_nanosPerSecond⟩

variable {t u : Time} {d : Duration}

theorem isAfter_iff : t.isAfter u ↔ u.toNanos < t.toNanos := by
  have ht := t.nanos_lt
  have hu := u.nanos_lt
  simp only [isAfter, toNanos, nanosPerSecond, Bool.or_eq_true, Bool.and_eq_true, decide_eq_true_eq,
    beq_iff_eq] at ht hu ⊢
  omega

theorem toNanos_of_ofParts? {seconds : Int} {nanos : Nat} {h : nanos < nanosPerSecond}
    (heq : ofParts? seconds nanos h = some u) : u.toNanos = seconds * nanosPerSecond + nanos := by
  unfold ofParts? at heq
  split at heq
  · obtain rfl := Option.some.inj heq
    rfl
  · cases heq

theorem not_range_of_ofParts? {seconds : Int} {nanos : Nat} {h : nanos < nanosPerSecond}
    (heq : ofParts? seconds nanos h = none) :
    seconds < -0x8000000000000000 ∨ 0x8000000000000000 ≤ seconds := by
  unfold ofParts? at heq
  split at heq
  · cases heq
  · omega

theorem toNanos_of_add? (h : t.add? d = some u) : u.toNanos = t.toNanos + d.toNanos := by
  unfold add? at h
  split at h
  case isTrue hcarry =>
    rw [toNanos_of_ofParts? h]
    simp only [toNanos, Duration.toNanos, nanosPerSecond]
    omega
  case isFalse hcarry =>
    rw [toNanos_of_ofParts? h]
    simp only [toNanos, Duration.toNanos, nanosPerSecond] at hcarry ⊢
    omega

/-- What cannot be represented lies after every time. -/
theorem toNanos_lt_of_add?_eq_none (h : t.add? d = none) (u : Time) :
    u.toNanos < t.toNanos + d.toNanos := by
  have hseconds := u.seconds_lt
  have hnanos := u.nanos_lt
  have hstart := t.seconds_ge
  unfold add? at h
  split at h
  case isTrue hcarry =>
    have hrange := not_range_of_ofParts? h
    simp only [toNanos, Duration.toNanos, nanosPerSecond] at hnanos ⊢
    omega
  case isFalse hcarry =>
    have hrange := not_range_of_ofParts? h
    simp only [toNanos, Duration.toNanos, nanosPerSecond] at hnanos hcarry ⊢
    omega

/-- Being newer by more than a tolerance is a comparison of numbers. -/
theorem isNewer_some_iff {tolerance : Duration} :
    isNewer (some t) (some u) tolerance ↔ u.toNanos + tolerance.toNanos < t.toNanos := by
  rw [isNewer]
  cases hsum : u.add? tolerance with
  | none =>
    have hlt := toNanos_lt_of_add?_eq_none hsum t
    simp only [Bool.false_eq_true, false_iff]
    omega
  | some threshold =>
    dsimp only
    rw [isAfter_iff, toNanos_of_add? hsum]

end Rebuild.Time
