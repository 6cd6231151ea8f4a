import Settle.Time

/-!
# Time as text

A time is written in the largest of seconds, milliseconds, microseconds and nanoseconds that
it fills, with one decimal. A half goes to the even digit, and rounding never changes the unit.
-/

namespace Settle

namespace Nanos

/-- Tenths of a unit as text. -/
def tenths (n : Nat) (unit : String) : String :=
  toString (n / 10) ++ "." ++ toString (n % 10) ++ unit

/-- `1.5s`, `100.0ms`, `0.0ns`. -/
def text (d : Nanos) : String :=
  if perSecond ≤ d then tenths (roundHalfEven d 100000000) "s"
  else if 1000000 ≤ d then tenths (roundHalfEven d 100000) "ms"
  else if 1000 ≤ d then tenths (roundHalfEven d 100) "µs"
  else tenths (d * 10) "ns"

end Nanos

end Settle
