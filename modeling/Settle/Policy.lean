import Settle.Time

/-!
# Retry policies

A policy bounds a run by a time budget and spaces its retries: delays grow from `initial` by
`factor` up to `ceiling`. With jitter on, half of each delay is kept and the other half drawn.
-/

namespace Settle

/-- A time budget with exponential delays inside it. -/
structure Policy where
  budget : Nanos
  initial : Nanos
  ceiling : Nanos
  factor : Binary64
  jitter : Bool
  deriving DecidableEq

/-- What follows a failure that may be retried. -/
inductive Decision where
  | giveUp
  | retryAfter (delay : Nanos)
  deriving DecidableEq, Repr

namespace Policy

/-- A policy whose delays never shrink: a factor that is not a finite number of at least one
counts as one, and the ceiling is at least the initial delay. -/
def normalized (budget initial ceiling : Nanos) (factor : Binary64) (jitter : Bool) : Policy where
  budget := budget
  initial := initial
  ceiling := max ceiling initial
  factor := if factor.isFinite ∧ 1 ≤ factor then factor else 1
  jitter := jitter

/-- Three minutes, for calls that only look. -/
def read : Policy := normalized (.seconds 180) (.millis 100) (.seconds 10) 2 true

/-- Five minutes, for calls that change something. -/
def write : Policy := normalized (.seconds 300) (.millis 100) (.seconds 10) 2 true

/-- Five minutes, for watching a change settle. -/
def poll : Policy := write

def withBudget (p : Policy) (budget : Nanos) : Policy := { p with budget }

def withoutJitter (p : Policy) : Policy := { p with jitter := false }

/-- The nominal delay before a retry, counted from one. A power that is out of range leaves the
ceiling. -/
def delay (p : Policy) (retry : Nat) : Nanos :=
  let grown := p.initial.toSeconds * p.factor.pow (min (retry - 1) (Nat.pow 2 31 - 1))
  let capped := grown.lesser p.ceiling.toSeconds
  if capped.isFinite ∧ 0 ≤ capped then (Nanos.ofSeconds? capped).getD p.ceiling else p.ceiling

/-- Half of a delay and a drawn share of the other half. -/
def jittered (draw : Binary64) (delay : Nanos) : Nanos :=
  let half := delay / 2
  let spread := delay - half
  if spread = 0 then delay
  else
    match Nanos.ofSeconds? (draw * spread.toSeconds) with
    | some extra => half + min extra spread
    | none => half + spread

/-- The decision after attempt number `attempt` failed, `elapsed` after the run began. -/
def next (p : Policy) (draw : Binary64) (attempt : Nat) (elapsed : Nanos) : Decision :=
  if p.budget ≤ elapsed then .giveUp
  else
    let nominal := p.delay attempt
    .retryAfter (if p.jitter then jittered draw nominal else nominal)

/-- The nominal delays of the first retries; the count is cut to 32 bits. -/
def schedule (p : Policy) (count : Nat) : List Nanos :=
  (List.range (count % Nat.pow 2 32)).map fun i => p.delay (i + 1)

end Policy

end Settle
