import Neighbor.Time

/-!
# Keepers of time

A ticker and its caller work in a runtime that keeps their timers and lets them take turns. How it
does so is not theirs to say: a `Timekeeper` is any such runtime, as far as ticks go. What results
rely on is `Timekeeper.Regular`. It leaves open who goes first when a tick is due at the time at
which a sleep ends, and how many ticks that are due still run when the ticker is told to stop.
-/

namespace Neighbor

/-- What a ticker and its caller leave to the runtime in which they work. Times are in nanoseconds
since some start. -/
structure Timekeeper where
  /-- What a clock that shows `clock` will show when a timer goes off that is set for `t`. -/
  wake (clock t : Nat) : Nat
  /-- A clock does not go back while one waits for a timer. -/
  clock_le_wake (clock t : Nat) : clock ≤ wake clock t
  /-- What a clock that shows `clock` will show when a sleep ends that is to last for `d`. -/
  sleepEnd (clock d : Nat) : Nat
  /-- When the first tick is due of a ticker that takes its first turn at `clock`. -/
  firstDue (clock : Nat) : Nat
  /-- When the next tick is due after one that was due at `due` and ran at `ran`. -/
  nextDue (period due ran : Nat) : Nat
  /-- Whether a tick that is due when a sleep ends runs before the sleeper goes on. -/
  tickFirst : Bool
  /-- Whether a sleep that ends at once lets the ticker take a turn. -/
  yields : Bool
  /-- How many ticks run at one time before the ticker gives way. -/
  burst : Nat
  /-- How many ticks that are due still run when the ticker is told to stop. -/
  beforeStop : Nat
  /-- The time up to which timers are kept. -/
  limit : Nat
  /-- The longest sleep. -/
  longest : Nat

namespace Timekeeper

/-- A tick may be this late without delaying the next. -/
def tolerance : Nat := 5 * nanosPerMilli

/-- The first whole millisecond at or after an instant. -/
def roundUp (t : Nat) : Nat := (t + (nanosPerMilli - 1)) / nanosPerMilli * nanosPerMilli

/-- How long a sleep lasts that begins at a whole millisecond. -/
def pause (k : Timekeeper) (d : Nat) : Nat := roundUp (min d k.longest)

/-- The last time whose ticks have run when a caller who has slept goes on at `clock`. -/
def lastRun (k : Timekeeper) (clock : Nat) : Nat := if k.tickFirst then clock else clock - 1

section Rounding

variable {clock t : Nat}

end Rounding

variable {k : Timekeeper} {clock later t : Nat}

end Timekeeper

end Neighbor
