/-!
# Durations and instants

A duration is a whole number of nanoseconds short of `2^64` seconds. An instant is a natural
number, the nanoseconds since the clock's origin. The clock holds the instants before `2^63`
seconds, so a deadline need not exist: `Clock.after?` is `none` exactly when it would lie beyond
the clock.
-/

namespace Neighbor

/-- One second in nanoseconds. -/
def nanosPerSec : Nat := 1000000000

/-- One millisecond in nanoseconds. -/
def nanosPerMilli : Nat := 1000000

/-- The longest duration, one nanosecond short of `2^64` seconds. -/
def Duration.maxNanos : Nat := UInt64.size * nanosPerSec - 1

/-- A length of time. -/
structure Duration where
  /-- Its nanoseconds. -/
  nanos : Nat
  nanos_le : nanos ≤ Duration.maxNanos
deriving DecidableEq

namespace Duration

/-- The duration of `n` nanoseconds, or the longest one if `n` is more than that. -/
def ofNanos (n : Nat) : Duration :=
  ⟨min n maxNanos, Nat.min_le_right _ _⟩

/-- The duration of `s` whole seconds. -/
def ofSecs (s : UInt64) : Duration :=
  ⟨s.toNat * nanosPerSec, by
    have := s.toNat_lt
    simp only [maxNanos, nanosPerSec, UInt64.size]
    omega⟩

/-- The duration of `ms` milliseconds. -/
def ofMillis (ms : UInt64) : Duration :=
  ⟨ms.toNat * nanosPerMilli, by
    have := ms.toNat_lt
    simp only [maxNanos, nanosPerSec, nanosPerMilli, UInt64.size]
    omega⟩

/-- `d` taken `k` times, or the longest duration if the product is more than that. -/
def scale (d : Duration) (k : Nat) : Duration :=
  ofNanos (d.nanos * k)

/-- Whole seconds of a duration. -/
def wholeSecs (d : Duration) : Nat := d.nanos / nanosPerSec

/-- What is left of a duration after its whole seconds, in nanoseconds. -/
def subsecNanos (d : Duration) : Nat := d.nanos % nanosPerSec

instance : LE Duration := ⟨fun a b => a.nanos ≤ b.nanos⟩

instance : LT Duration := ⟨fun a b => a.nanos < b.nanos⟩

instance (a b : Duration) : Decidable (a ≤ b) := inferInstanceAs (Decidable (a.nanos ≤ b.nanos))

instance (a b : Duration) : Decidable (a < b) := inferInstanceAs (Decidable (a.nanos < b.nanos))

instance : Min Duration := ⟨fun a b => if a ≤ b then a else b⟩

instance : Max Duration := ⟨fun a b => if a ≤ b then b else a⟩

/-- Durations are compared by their nanoseconds. -/
theorem le_def {a b : Duration} : a ≤ b ↔ a.nanos ≤ b.nanos := Iff.rfl

/-- Durations are strictly compared by their nanoseconds. -/
theorem lt_def {a b : Duration} : a < b ↔ a.nanos < b.nanos := Iff.rfl

/-- Durations of equal length are equal. -/
theorem ext_nanos {a b : Duration} (h : a.nanos = b.nanos) : a = b := by
  cases a
  cases b
  simpa using h

/-- A duration of more nanoseconds than it can hold is the longest one. -/
@[simp] theorem nanos_ofNanos (n : Nat) : (ofNanos n).nanos = min n maxNanos := rfl

/-- A multiple of a duration is exact up to the longest one. -/
@[simp] theorem nanos_scale (d : Duration) (k : Nat) :
    (d.scale k).nanos = min (d.nanos * k) maxNanos := rfl

/-- The shorter of two durations has the smaller number of nanoseconds. -/
@[simp] theorem nanos_min (a b : Duration) : (min a b).nanos = min a.nanos b.nanos := by
  show (if a ≤ b then a else b).nanos = _
  simp only [le_def]
  split <;> omega

/-- The longer of two durations has the greater number of nanoseconds. -/
@[simp] theorem nanos_max (a b : Duration) : (max a b).nanos = max a.nanos b.nanos := by
  show (if a ≤ b then b else a).nanos = _
  simp only [le_def]
  split <;> omega

end Duration

namespace Clock

/-- The first instant that a clock cannot hold. -/
def limit : Nat := UInt64.size / 2 * nanosPerSec

/-- The instant `d` after `t`, if a clock can hold it. -/
def after? (t : Nat) (d : Duration) : Option Nat :=
  if t + d.nanos < limit then some (t + d.nanos) else none

end Clock

end Neighbor
