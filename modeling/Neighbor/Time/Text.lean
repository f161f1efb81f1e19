import Neighbor.Text.Decimal
import Neighbor.Time

/-!
# The text of a duration

A duration is written in the largest of the units second, millisecond, microsecond and nanosecond
of which it holds at least one whole, as a decimal number with no trailing zeros.
-/

namespace Neighbor.Duration

/-- The digits after the point for `part` units out of `10^places`, without trailing zeros. -/
def fractionDigits (part places : Nat) : List Char :=
  let digits := Text.decimal part
  let padded := List.replicate (places - digits.length) '0' ++ digits
  (padded.reverse.dropWhile (· == '0')).reverse

/-- `whole` and a fraction of `part` out of `10^places`, in the unit named `suffix`. -/
def inUnit (whole part places : Nat) (suffix : String) : String :=
  let fraction := if part = 0 then [] else '.' :: fractionDigits part places
  String.ofList (Text.decimal whole ++ fraction) ++ suffix

/-- The text of a duration: `0ns`, `7ms`, `1.5s`. -/
def text (d : Duration) : String :=
  let secs := d.wholeSecs
  let sub := d.subsecNanos
  if 0 < secs then inUnit secs sub 9 "s"
  else if nanosPerMilli ≤ sub then inUnit (sub / nanosPerMilli) (sub % nanosPerMilli) 6 "ms"
  else if 1000 ≤ sub then inUnit (sub / 1000) (sub % 1000) 3 "µs"
  else inUnit sub 0 0 "ns"

end Neighbor.Duration
