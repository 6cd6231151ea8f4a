import Settle.Number.Binary64

/-!
# Time in whole nanoseconds

Lengths of time and points on the clock are natural numbers of nanoseconds; a deadline may lie
before the clock started and is an integer. Seconds written as doubles are rounded to the
nearest nanosecond, ties to the even one.
-/

namespace Settle

/-- A length of time, or a point on the clock, in nanoseconds. -/
abbrev Nanos := Nat

/-- A point in time that may lie before the clock started, in nanoseconds. -/
abbrev Instant := Int

namespace Nanos

def perSecond : Nanos := 1000000000

def seconds (n : Nat) : Nanos := n * perSecond

def millis (n : Nat) : Nanos := n * 1000000

/-- The longest length of time: a 64-bit count of seconds and a full fraction. -/
def longest : Nanos := seconds (Nat.pow 2 64) - 1

/-- The longest length of time taken from settings or a scenario. -/
def year : Nanos := seconds (86400 * 365)

/-- Whole milliseconds, as logs count them in 64 bits. -/
def wholeMillis (d : Nanos) : Nat := d / 1000000 % Nat.pow 2 64

/-- The time in seconds: whole seconds and the fraction are rounded apart, then added. -/
def toSeconds (d : Nanos) : Binary64 :=
  Binary64.ofNat (d / perSecond) + Binary64.ofNat (d % perSecond) / Binary64.ofNat perSecond

/-- The nearest whole number of nanoseconds; `none` for negative times, for times of `2 ^ 64`
seconds and more, and where there is no number. -/
def ofSeconds? : Binary64 → Option Nanos
  | .finite negative units _ =>
    if units = 0 then some 0
    else if negative ∨ Nat.pow 2 64 * Binary64.one ≤ units then none
    else some (roundHalfEven (units * perSecond) Binary64.one)
  | .infinite _ | .nan => none

/-- Seconds as configured: times that are not positive are zero, and times past a year end
at a year. -/
def ofConfigured (x : Binary64) : Nanos :=
  if 0 < x then
    match ofSeconds? x with
    | some d => min d year
    | none => year
  else 0

end Nanos

namespace Instant

/-- The last point in time that can be held: a signed 64-bit count of seconds and a full
fraction. -/
def latest : Instant := Nat.pow 2 63 * Nanos.perSecond - 1

end Instant

end Settle
