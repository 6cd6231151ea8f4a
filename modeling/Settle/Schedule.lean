import Settle.Policy

/-!
# Schedules

A schedule lists the nominal delays of the first retries with the time waited so far, and tells
which of them the time budget still covers.
-/

namespace Settle

/-- One retry of a schedule, counted from one. -/
structure ScheduleRow where
  retry : Nat
  delay : Nanos
  /-- The delays up to this one, added up. -/
  total : Nanos
  /-- Whether the total is within the budget. -/
  within : Bool
  deriving DecidableEq, Repr

/-- The rows of the first retries; the count is cut to 32 bits. -/
def Policy.rows (p : Policy) (count : Nat) : List ScheduleRow :=
  let delays := p.schedule count
  (delays.zip (delays.scanl (· + ·) 0).tail).mapIdx fun i (delay, total) =>
    { retry := i + 1, delay, total, within := decide (total ≤ p.budget) }

theorem Policy.length_schedule (p : Policy) (count : Nat) :
    (p.schedule count).length = count % Nat.pow 2 32 := by
  simp [Policy.schedule]

theorem Policy.length_rows (p : Policy) (count : Nat) :
    (p.rows count).length = (p.schedule count).length := by
  simp [Policy.rows]

end Settle
