/-!
# Instants and durations

A modification time is a whole number of seconds, before or after the epoch, and a part of a second
in nanoseconds. Seconds fit in a signed 64-bit word and those of a duration in an unsigned one, so a
time plus a duration may lie outside what a time can hold. A file is newer than another one only by
more than a tolerance; if the tolerance reaches past the last instant, nothing is newer.
-/

namespace Rebuild

/-- How many nanoseconds a second has. -/
def nanosPerSecond : Nat := 1000000000

/-- An instant, counted from the epoch. -/
structure Time where
  seconds : Int
  nanos : Nat
  seconds_ge : -0x8000000000000000 ≤ seconds
  seconds_lt : seconds < 0x8000000000000000
  nanos_lt : nanos < nanosPerSecond
deriving DecidableEq

/-- A length of time. -/
structure Duration where
  seconds : Nat
  nanos : Nat
  seconds_lt : seconds < 0x10000000000000000
  nanos_lt : nanos < nanosPerSecond
deriving DecidableEq

namespace Duration

/-- No time at all. -/
def zero : Duration := ⟨0, 0, by decide, by decide⟩

/-- The length in nanoseconds. -/
def toNanos (d : Duration) : Nat :=
  d.seconds * nanosPerSecond + d.nanos

/-- The duration of a number of nanoseconds, if its seconds fit. -/
def ofNanos? (n : Nat) : Option Duration :=
  if h : n / nanosPerSecond < 0x10000000000000000 then
    some ⟨n / nanosPerSecond, n % nanosPerSecond, h, Nat.mod_lt _ (by decide)⟩
  else none

/-- The duration of a number of milliseconds. -/
def ofMillis (n : UInt64) : Duration where
  seconds := n.toNat / 1000
  nanos := n.toNat % 1000 * 1000000
  seconds_lt := Nat.lt_of_le_of_lt (Nat.div_le_self _ _) n.toNat_lt
  nanos_lt := by
    have : n.toNat % 1000 < 1000 := Nat.mod_lt _ (by decide)
    unfold nanosPerSecond
    omega

end Duration

namespace Time

/-- The instant in nanoseconds from the epoch. -/
def toNanos (t : Time) : Int :=
  t.seconds * nanosPerSecond + t.nanos

/-- The instant a number of seconds and nanoseconds from the epoch, if its seconds fit. -/
def ofParts? (seconds : Int) (nanos : Nat) (h : nanos < nanosPerSecond) : Option Time :=
  if hs : -0x8000000000000000 ≤ seconds ∧ seconds < 0x8000000000000000 then
    some ⟨seconds, nanos, hs.1, hs.2, h⟩
  else none

/-- The instant a number of nanoseconds from the epoch, if its seconds fit. The part of a second
counts forward also before the epoch. -/
def ofNanos? (n : Int) : Option Time :=
  ofParts? (n / nanosPerSecond) (n % nanosPerSecond).toNat (by
    have h := Int.emod_lt_of_pos n (show (0 : Int) < nanosPerSecond by decide)
    have := Int.emod_nonneg n (show (nanosPerSecond : Int) ≠ 0 by decide)
    omega)

/-- The instant a duration later, if there is one. -/
def add? (t : Time) (d : Duration) : Option Time :=
  if h : t.nanos + d.nanos < nanosPerSecond then
    ofParts? (t.seconds + d.seconds) (t.nanos + d.nanos) h
  else
    ofParts? (t.seconds + d.seconds + 1) (t.nanos + d.nanos - nanosPerSecond) (by
      have := t.nanos_lt
      have := d.nanos_lt
      omega)

/-- Strictly after. -/
def isAfter (a b : Time) : Bool :=
  b.seconds < a.seconds || (a.seconds == b.seconds && b.nanos < a.nanos)

/-- Whether a file of the first time is newer than a file of the second by more than the tolerance.
A file that does not exist has no time: it is never newer, and every file that exists is newer than
it. -/
def isNewer (candidate reference : Option Time) (tolerance : Duration) : Bool :=
  match candidate, reference with
  | none, _ => false
  | some _, none => true
  | some candidate, some reference =>
    match reference.add? tolerance with
    | some threshold => candidate.isAfter threshold
    | none => false

end Time

end Rebuild
