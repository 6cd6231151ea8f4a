import Settle.Time

/-!
# Token buckets

A bucket fills at `rate` tokens a second up to `rate` tokens. Every caller takes one token; a
negative balance is a queue of callers who were promised later turns. The numbers are doubles
in a running limiter and may be exact ones elsewhere.
-/

namespace Settle

/-- A balance of tokens as it was at one point in time. -/
structure Bucket (κ : Type) where
  tokens : κ
  rate : κ
  updated : Nanos
  deriving DecidableEq, Repr

namespace Bucket

variable {κ : Type}

/-- A full bucket. -/
def full (rate : κ) (now : Nanos) : Bucket κ := ⟨rate, rate, now⟩

/-- Refills for the time since the last update, then takes one token. Time that runs backwards
refills nothing. -/
def take [Add κ] [Sub κ] [Mul κ] [Min κ] [OfNat κ 1] (seconds : Nanos → κ) (b : Bucket κ)
    (now : Nanos) : Bucket κ :=
  { b with
    tokens := min (b.tokens + seconds (now - b.updated) * b.rate) b.rate - 1
    updated := now }

/-- The seconds until the balance is back at zero. -/
def debt [Neg κ] [Div κ] [LE κ] [DecidableLE κ] [OfNat κ 0] (b : Bucket κ) : κ :=
  if 0 ≤ b.tokens then 0 else -b.tokens / b.rate

end Bucket

end Settle
