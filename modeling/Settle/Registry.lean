import Settle.Time

/-!
# Operations in flight

A registry gives every registered operation a fresh cancel signal and raises the signals of
operations by their ids. Registering an id again puts a new signal in the place of the old one;
a raised signal stays raised.
-/

namespace Settle

/-- A cancel signal; all holders of one signal see the same state. -/
structure Signal where
  number : Nat
  deriving DecidableEq, Repr

/-- What a caller carries along: a signal, and perhaps a deadline. -/
structure Context where
  signal : Signal
  deadline : Option Instant := none
  deriving DecidableEq, Repr

structure Registry where
  /-- The signal of each registered id; every id stands once. -/
  operations : List (String × Signal) := []
  raised : List Signal := []
  /-- How many signals have been made. -/
  made : Nat := 0
  deriving Repr

namespace Registry

/-- A signal that nobody holds yet. -/
def fresh (r : Registry) : Signal × Registry := (⟨r.made⟩, { r with made := r.made + 1 })

def isRaised (r : Registry) (s : Signal) : Bool := s ∈ r.raised

def raise (r : Registry) (s : Signal) : Registry := { r with raised := s :: r.raised }

/-- Registers an operation under a fresh signal. -/
def register (r : Registry) (id : String) : Context × Registry :=
  let (s, r) := r.fresh
  ({ signal := s }, { r with operations := (id, s) :: r.operations.filter (·.1 ≠ id) })

def unregister (r : Registry) (id : String) : Registry :=
  { r with operations := r.operations.filter (·.1 ≠ id) }

/-- Raises the signal of an operation; the answer says whether the id is registered. -/
def requestCancel (r : Registry) (id : String) : Bool × Registry :=
  match r.operations.lookup id with
  | some s => (true, r.raise s)
  | none => (false, r)

/-- Raises the signals of all registered operations. -/
def cancelAll (r : Registry) : Registry :=
  { r with raised := r.operations.map (·.2) ++ r.raised }

/-- How many operations are registered. -/
def inFlight (r : Registry) : Nat := r.operations.length

end Registry

end Settle
