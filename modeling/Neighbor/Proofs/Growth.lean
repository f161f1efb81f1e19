import Mathlib.Algebra.Group.Nat.Defs
import Neighbor.Backoff

/-!
# How the waits grow

By the formula, the wait after probe number `n` is the first wait times a power of the multiplier,
and no longer than the longest one (`Backoff.exactNanos`). The factor is a 32-bit word, and it can
stop growing before the longest wait is reached. `Backoff.delay_exact_iff` says what the wait is in
every case, and that it is the one of the formula until the factor stops below the longest wait.
Whatever stops, no wait is shorter than the one before it, and the longest wait is kept to once it
is reached (`Backoff.delay_ascends`).
-/

namespace Neighbor.Backoff

variable {b : Backoff} {n : Nat}

/-- The nanoseconds of the wait after probe number `n` by the formula. -/
def exactNanos (b : Backoff) (n : Nat) : Nat :=
  min b.max.nanos (b.initial.nanos * b.multiplier.toNat ^ (n - 1))

/-- A product that stops at the longest duration has passed the longest wait. -/
theorem nanos_delay_eq (b : Backoff) (n : Nat) :
    (b.delay n).nanos = min b.max.nanos (b.initial.nanos * b.factor n) := by
  have hlongest := b.max.nanos_le
  rw [nanos_delay]
  omega

/-- A multiplier that is not zero is the base. -/
theorem factor_eq_of_pos (h : 1 ≤ b.multiplier.toNat) (n : Nat) :
    b.factor n = min (b.multiplier.toNat ^ (n - 1)) maxFactor := by
  have hbase : b.base = b.multiplier.toNat := Nat.max_eq_left h
  rw [factor_eq, hbase]
  rfl

/-- Two products of one number stop together at a bound if the smaller of them reaches it. -/
private theorem min_mul_eq_iff {bound i k l : Nat} (hkl : k < l) :
    min bound (i * k) = min bound (i * l) ↔ i = 0 ∨ bound ≤ i * k := by
  rcases Nat.eq_zero_or_pos i with rfl | hi
  · simp
  · have hless : i * k < i * l := Nat.mul_lt_mul_of_pos_left hkl hi
    omega

/-- The wait after a probe is the first one times the power of the multiplier, which stops at the
largest 32-bit word, and no longer than the longest one. So it is the wait of the formula unless the
power has stopped and what it makes of a first wait that is not zero is below the longest one. -/
theorem delay_exact_iff (h : 1 ≤ b.multiplier.toNat) (n : Nat) :
    (b.delay n).nanos =
        min b.max.nanos (b.initial.nanos * min (b.multiplier.toNat ^ (n - 1)) (2 ^ 32 - 1)) ∧
      ((b.delay n).nanos = b.exactNanos n ↔
        b.multiplier.toNat ^ (n - 1) < 2 ^ 32 ∨ b.initial.nanos = 0 ∨
          b.max.nanos ≤ b.initial.nanos * (2 ^ 32 - 1)) := by
  have hwait : (b.delay n).nanos =
      min b.max.nanos (b.initial.nanos * min (b.multiplier.toNat ^ (n - 1)) (2 ^ 32 - 1)) := by
    rw [nanos_delay_eq, factor_eq_of_pos h]
    rfl
  refine ⟨hwait, ?_⟩
  rw [hwait, exactNanos]
  by_cases hstops : b.multiplier.toNat ^ (n - 1) < 2 ^ 32
  · have hpower : min (b.multiplier.toNat ^ (n - 1)) (2 ^ 32 - 1) = b.multiplier.toNat ^ (n - 1) :=
      Nat.min_eq_left (by omega)
    rw [hpower]
    exact iff_of_true rfl (.inl hstops)
  · have hpower : min (b.multiplier.toNat ^ (n - 1)) (2 ^ 32 - 1) = 2 ^ 32 - 1 :=
      Nat.min_eq_right (by omega)
    rw [hpower, min_mul_eq_iff (by omega)]
    exact (or_iff_right hstops).symm

/-- Waits that double from a millisecond up to a hundred days: the first power of two that is no
32-bit word comes before the longest wait. -/
def gentle : Backoff := ⟨.ofMillis 1, 2, .ofSecs 8640000⟩

/-- Up to probe 32 the waits that double from a millisecond are exact, and after it they are not. -/
theorem delay_exact_of_gentle :
    1 ≤ gentle.multiplier.toNat ∧ (gentle.delay 32).nanos = gentle.exactNanos 32 ∧
      (gentle.delay 33).nanos ≠ gentle.exactNanos 33 := by
  have hpos : 1 ≤ gentle.multiplier.toNat := by decide
  refine ⟨hpos, (delay_exact_iff hpos 32).2.mpr (.inl (by decide)), fun heq => ?_⟩
  exact absurd ((delay_exact_iff hpos 33).2.mp heq) (by decide)

/-- The wait after probe 34 is half of what the formula gives, which the longest wait allows. -/
theorem delay_stops_short :
    ¬∀ (b : Backoff) (n : Nat), 1 ≤ b.multiplier.toNat → 1 ≤ n → n < UInt32.size →
      (b.delay n).nanos = b.exactNanos n := by
  intro hformula
  have hwait : (gentle.delay 34).nanos = 4294967295000000 := by decide +kernel
  have hexact : gentle.exactNanos 34 = 8589934592000000 := by decide +kernel
  have heq := hformula gentle 34 (by decide) (by decide) (by decide)
  rw [hwait, hexact] at heq
  omega

/-- No factor is zero, whatever the multiplier. -/
theorem one_le_factor (b : Backoff) (n : Nat) : 1 ≤ b.factor n := by
  have hpower : 1 ≤ b.base.pow (n - 1) := Nat.one_le_pow _ _ b.base_pos
  rw [factor_eq]
  exact Nat.le_min.mpr ⟨hpower, by decide⟩

/-- The factor does not shrink: a power of the base does not, and it stops at one bound. -/
theorem factor_mono (b : Backoff) {m n : Nat} (h : m ≤ n) : b.factor m ≤ b.factor n := by
  have hpower : b.base.pow (m - 1) ≤ b.base.pow (n - 1) :=
    Nat.pow_le_pow_right b.base_pos (Nat.sub_le_sub_right h 1)
  rw [factor_eq, factor_eq]
  omega

/-- Waits do not shrink from one probe to a later one. They begin with the first wait, or with the
longest one if that is shorter, none is longer than the longest, and a wait that follows one of that
length is as long. -/
theorem delay_ascends (b : Backoff) {m n : Nat} (h : m ≤ n) :
    min b.initial b.max ≤ b.delay m ∧ b.delay m ≤ b.delay n ∧ b.delay n ≤ b.max ∧
      (b.delay m = b.max → b.delay n = b.max) := by
  have hbegins : min b.initial b.max ≤ b.delay m := by
    have hproduct : b.initial.nanos * 1 ≤ b.initial.nanos * b.factor m :=
      Nat.mul_le_mul_left _ (b.one_le_factor m)
    rw [Duration.le_def, Duration.nanos_min, nanos_delay_eq]
    omega
  have hgrows : b.delay m ≤ b.delay n := by
    have hproduct : b.initial.nanos * b.factor m ≤ b.initial.nanos * b.factor n :=
      Nat.mul_le_mul_left _ (b.factor_mono h)
    rw [Duration.le_def, nanos_delay_eq, nanos_delay_eq]
    omega
  have hcapped : b.delay n ≤ b.max := by
    rw [Duration.le_def, nanos_delay_eq]
    exact Nat.min_le_left _ _
  refine ⟨hbegins, hgrows, hcapped, fun hreached => Duration.ext_nanos ?_⟩
  rw [hreached] at hgrows
  exact Nat.le_antisymm hcapped hgrows

/-- From a first wait of `2^33` seconds the next is longer than any duration, and the power after it
is no 32-bit word. -/
def steep : Backoff := ⟨.ofSecs 8589934592, 4294967295, .ofNanos Duration.maxNanos⟩

/-- From a first wait that is shorter than the longest one, the second is the longest, and so is the
third. -/
theorem delay_ascends_of_steep :
    2 ≤ 3 ∧ steep.delay 2 = steep.max ∧ steep.delay 3 = steep.max ∧
      steep.delay 1 ≤ steep.delay 2 ∧ steep.delay 1 ≠ steep.delay 2 := by
  have hreached : steep.delay 2 = steep.max := by decide +kernel
  obtain ⟨_, _, _, hkept⟩ := steep.delay_ascends (show 2 ≤ 3 by decide)
  obtain ⟨_, hgrows, _⟩ := steep.delay_ascends (show 1 ≤ 2 by decide)
  exact ⟨by decide, hreached, hkept hreached, hgrows, by decide +kernel⟩

end Neighbor.Backoff
