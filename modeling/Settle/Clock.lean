import Settle.Time

/-!
# The clock of one caller

A clock carries the cancel signal of the caller that waits on it: whether the signal is raised,
and when it falls due if it is not. Code takes no time; only waits and remote calls move the
clock, and a wait ends early when the signal is raised.
-/

namespace Settle

/-- A point in time together with a cancel signal. -/
structure Clock where
  now : Nanos := 0
  raised : Bool := false
  /-- When the signal will be raised, unless it is raised before. -/
  due : Option Nanos := none
  deriving DecidableEq, Repr

namespace Clock

/-- Waits for `span`, or until the signal is raised. A signal that is due at the end of the
wait is raised, also by a wait of no length; a raised signal leaves nothing to wait for. -/
def wait (c : Clock) (span : Nanos) : Clock :=
  if c.raised then c
  else
    match c.due with
    | some t =>
      if t ≤ c.now + span then { c with now := max c.now t, raised := true }
      else { c with now := c.now + span }
    | none => { c with now := c.now + span }

/-- Lets `span` go by in any case; a signal that falls due on the way is raised. -/
def pass (c : Clock) (span : Nanos) : Clock :=
  if span = 0 then c
  else
    { c with
      now := c.now + span
      raised := c.raised || c.due.any (· ≤ c.now + span) }

/-- Raises the signal. -/
def raise (c : Clock) : Clock := { c with raised := true }

end Clock

end Settle
