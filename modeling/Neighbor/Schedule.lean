import Neighbor.Cache.Call
import Neighbor.Time.Timekeeper

/-!
# Ticks at regular intervals

A ticker ages a cache: its first tick is due when it takes its first turn, and then one in every
period, as a `Timekeeper` has it. To start a ticker does not run it: it takes its first turn when
the caller gives way, and that is when the caller sleeps, when the clock jumps, or when the caller
waits for the ticker to stop. Time passes in two ways: while one sleeps, each tick runs when its
timer goes off; when the clock jumps, the ticks that have become due run at the new time. No more
than a fixed number of ticks run at one time.
-/

namespace Neighbor

/-- A ticker at work. -/
structure Ticker where
  /-- The time between ticks in nanoseconds. -/
  period : Nat
  period_pos : 0 < period
  /-- When the next tick is due. -/
  due : Nat
  /-- How many ticks have run. -/
  ticks : Nat
deriving DecidableEq

namespace Ticker

/-- The shortest period, one millisecond. -/
def minPeriod : Nat := nanosPerMilli

/-- A ticker for a configuration whose first tick is due at `now`. -/
def start (cfg : Config) (now : Nat) : Ticker where
  period := max cfg.tick.nanos minPeriod
  period_pos := Nat.lt_of_lt_of_le (by decide) (Nat.le_max_right _ _)
  due := now
  ticks := 0

variable (k : Timekeeper)

/-- The ticker when it takes its first turn. -/
def enter (t : Ticker) (now : Nat) : Ticker := { t with due := k.firstDue now }

/-- When the next tick runs if the clock shows `clock`. -/
def nextRun (t : Ticker) (clock : Nat) : Nat := k.wake clock t.due

/-- The ticker after a tick that ran at `now`. -/
def ran (t : Ticker) (now : Nat) : Ticker :=
  { t with due := k.nextDue t.period t.due now, ticks := t.ticks + 1 }

/-- A tick does not run before the time that the clock shows. -/
theorem clock_le_nextRun (t : Ticker) (clock : Nat) : clock ≤ t.nextRun k clock :=
  k.clock_le_wake clock t.due

end Ticker

/-- Whether ticks run. -/
inductive Ticking
  | off
  /-- A ticker has been started and has had no turn yet. -/
  | started (t : Ticker)
  | on (t : Ticker)
  /-- A tick met a deadline that the clock cannot hold. -/
  | crashed
deriving DecidableEq

/-- A cache on a clock, with the items sent and the warnings so far. -/
structure Schedule (α : Type) where
  cache : Cache α
  /-- The instant at which the schedule began. -/
  began : Nat
  /-- The nanoseconds since then. Sleeps and ticks are timed by them. -/
  clock : Nat := 0
  ticking : Ticking := .off
  /-- The items handed to the transmitter and what the clock then showed. -/
  sent : List (Nat × Outbound α) := []
  warnings : List Warning := []

namespace Schedule

variable {α : Type}

/-- Notes what an operation left and showed when the clock showed `now`. -/
def noting {β : Type} (s : Schedule α) (now : Nat) (o : Outcome α β) : Schedule α :=
  { s with
    cache := o.cache
    sent := s.sent ++ o.sent.map (now, ·)
    warnings := s.warnings ++ o.warnings }

/-- Starts a new ticker in place of any other. It has no turn until the caller gives way. -/
def start (s : Schedule α) : Schedule α :=
  { s with ticking := .started (.start s.cache.config s.clock) }

/-- Makes a call at the time that the clock shows. -/
def perform (r : Responder) (s : Schedule α) (call : Call α) :
    Except (Halted α) (Schedule α × Answer) :=
  (s.cache.perform r (s.began + s.clock) call).map fun o => (s.noting s.clock o, o.answer)

/-- Ends the work of the ticker. The answer is the number of ticks it ran, zero if it crashed, and
nothing if there was none. -/
def dismiss (s : Schedule α) : Schedule α × Option Nat :=
  ({ s with ticking := .off }, match s.ticking with
    | .off => none
    | .started t | .on t => some t.ticks
    | .crashed => some 0)

/-- Whether the ticker has come to an end, if there is one. -/
def isFinished (s : Schedule α) : Option Bool :=
  match s.ticking with
  | .off => none
  | .started _ | .on _ => some false
  | .crashed => some true

variable (k : Timekeeper) (r : Responder)

/-- The ticker at work if it takes a turn now. -/
def ticker? (s : Schedule α) : Option Ticker :=
  match s.ticking with
  | .started t => some (t.enter k s.clock)
  | .on t => some t
  | .off | .crashed => none

/-- Runs the ticks of `t` up to `target`, each when its timer goes off. No more than `left` of them
run at the time that the clock shows and `k.burst` at a later one. -/
def runDue (target left : Nat) (s : Schedule α) (t : Ticker) : Schedule α :=
  let now := t.nextRun k s.clock
  let room := if now = s.clock then left else k.burst
  if now ≤ target ∧ 0 < room then
    match s.cache.tick r (s.began + now) with
    | .error h => { s.noting now h with clock := now, ticking := .crashed }
    | .ok o => runDue target (room - 1) { s.noting now o with clock := now } (t.ran k now)
  else { s with ticking := .on t }
termination_by (target - s.clock, left)
decreasing_by
  have hclock : s.clock ≤ now := t.clock_le_nextRun k s.clock
  show Prod.Lex _ _ (target - now, room - 1) _
  by_cases hnow : now = s.clock
  · have hroom : room = left := if_pos hnow
    rw [hnow]
    exact Prod.Lex.right _ (by omega)
  · exact Prod.Lex.left _ _ (by omega)

/-- Runs the ticks that are due up to `target`, if any run, but no more than `left` at the time that
the clock shows. -/
def catchUp (target left : Nat) (s : Schedule α) : Schedule α :=
  match s.ticker? k with
  | some t => s.runDue k r target left t
  | none => s

/-- Lets the ticker take a turn. -/
def giveWay (s : Schedule α) : Schedule α := s.catchUp k r s.clock k.burst

/-- Sleeps for `d` nanoseconds. -/
def sleep (s : Schedule α) (d : Nat) : Schedule α :=
  let woken := k.sleepEnd s.clock d
  if woken = s.clock then if k.yields then s.giveWay k r else s
  else { s.catchUp k r (k.lastRun woken) k.burst with clock := woken }

/-- Sets the clock forward by `d`, if it can hold the new time, and gives way. -/
def jump? (s : Schedule α) (d : Duration) : Option (Schedule α) :=
  (Clock.after? (s.began + s.clock) d).map fun now =>
    giveWay k r { s with clock := now - s.began }

/-- Stops the ticker and waits for it. -/
def stop (s : Schedule α) : Schedule α × Option Nat :=
  (s.catchUp k r s.clock k.beforeStop).dismiss

end Schedule

end Neighbor
