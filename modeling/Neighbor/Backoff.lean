import Neighbor.Time

/-!
# Waiting between probes

The wait after the `n`-th probe is `initial * multiplier^(n-1)`, and `max` if that is longer. The
power stops growing at `2^32 - 1` and the product at the longest duration.
-/

namespace Neighbor

/-- How long to wait between two probes for one address. -/
structure Backoff where
  /-- The wait after the first probe. -/
  initial : Duration
  /-- What each further wait is multiplied by; `0` counts as `1`. -/
  multiplier : UInt32
  /-- No wait is longer than this. -/
  max : Duration
deriving DecidableEq

namespace Backoff

/-- The largest factor by which the first wait is lengthened. -/
def maxFactor : Nat := UInt32.size - 1

/-- The multiplier, at least one. -/
def base (b : Backoff) : Nat := Nat.max b.multiplier.toNat 1

/-- The factor for the wait after probe number `probes`. Beyond the thirty-second power of a base
of two or more the bound is reached, so no such power is computed. -/
def factor (b : Backoff) (probes : Nat) : Nat :=
  if b.base = 1 then 1
  else if probes - 1 < 32 then min (b.base.pow (probes - 1)) maxFactor
  else maxFactor

/-- The wait after probe number `probes`. -/
def delay (b : Backoff) (probes : Nat) : Duration :=
  min (b.initial.scale (b.factor probes)) b.max

/-- Waits do not shrink: the base of the factor is at least one. -/
theorem base_pos (b : Backoff) : 1 ≤ b.base := Nat.le_max_right _ _

/-- The factor is the power of the base, stopped at `maxFactor`. -/
theorem factor_eq (b : Backoff) (probes : Nat) :
    b.factor probes = min (b.base.pow (probes - 1)) maxFactor := by
  unfold factor
  split
  · next h => simp [h, maxFactor]
  · next h =>
    split
    · rfl
    · next hp =>
      have hbase : 2 ≤ b.base := by have := b.base_pos; omega
      have hpow : UInt32.size ≤ b.base.pow (probes - 1) :=
        calc
          UInt32.size = Nat.pow 2 32 := rfl
          _ ≤ Nat.pow 2 (probes - 1) := Nat.pow_le_pow_right (by omega) (by omega)
          _ ≤ b.base.pow (probes - 1) := Nat.pow_le_pow_left hbase _
      unfold maxFactor
      omega

/-- The nanoseconds of a wait. -/
theorem nanos_delay (b : Backoff) (probes : Nat) :
    (b.delay probes).nanos =
      min (min (b.initial.nanos * b.factor probes) Duration.maxNanos) b.max.nanos := by
  simp [delay]

end Backoff

end Neighbor
