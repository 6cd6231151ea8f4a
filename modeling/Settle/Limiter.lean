import Settle.Gate
import Settle.Limiter.Bucket

/-!
# The rate limiter

Every action has a bucket of its own, made when the action is first reserved. A rate that is
not a positive finite number means no limit, and very low rates count as one call in a thousand
seconds.
-/

namespace Settle

instance : Min Binary64 := ⟨Binary64.lesser⟩

/-- Rates of calls per second: one for each listed action and one for all others. -/
structure Limiter where
  standard : Binary64
  /-- The latest rate for an action comes first. -/
  overrides : List (String × Binary64)
  deriving DecidableEq

/-- The buckets of the actions reserved so far. -/
abbrev Buckets := List (String × Bucket Binary64)

namespace Limiter

/-- Twenty calls a second. -/
def standardRate : Binary64 := 20

/-- The lowest rate that is kept, one call in a thousand seconds. -/
def lowestRate : Binary64 := 1 / 1000

def ofRate (standard : Binary64) : Limiter := ⟨standard, []⟩

def withLimit (l : Limiter) (action : String) (rate : Binary64) : Limiter :=
  { l with overrides := (action, rate) :: l.overrides }

def withLimits (l : Limiter) (rates : List (String × Binary64)) : Limiter :=
  rates.foldl (fun l (action, rate) => l.withLimit action rate) l

def limitFor (l : Limiter) (action : String) : Binary64 :=
  (l.overrides.lookup action).getD l.standard

/-- The rate at which turns for an action are given; `none` where there is no limit. -/
def rate? (l : Limiter) (action : String) : Option Binary64 :=
  let rate := l.limitFor action
  if rate.isFinite ∧ 0 < rate then some (rate.greater lowestRate) else none

/-- The wait that a bucket stands for, a year at most. -/
def turn (b : Bucket Binary64) : Nanos :=
  match Nanos.ofSeconds? b.debt with
  | some d => min d Nanos.year
  | none => Nanos.year

def reserve (l : Limiter) (action : String) (now : Nanos) (buckets : Buckets) :
    Nanos × Buckets :=
  match l.rate? action with
  | none => (0, buckets)
  | some rate =>
    let bucket := ((buckets.lookup action).getD (.full rate now)).take Nanos.toSeconds now
    (turn bucket, (action, bucket) :: buckets.filter (·.1 ≠ action))

def gate (l : Limiter) : Gate Buckets where
  reserve := l.reserve
  announces := true

end Limiter

end Settle
