import Settle.Cause

/-!
# Resource statuses

A status table names the statuses that are still changing and those that are wanted; every
other status is a failure. Case is ignored for ASCII letters only.
-/

namespace Settle

/-- What one look at a resource showed. -/
inductive Observation (α : Type) where
  /-- Still changing. -/
  | pending (status : String)
  /-- In the wanted state. -/
  | ready (value : α)
  /-- Settled in another state. -/
  | failed (status : String) (message : Option String)
  deriving DecidableEq, Repr

namespace Observation

variable {α β : Type}

/-- A pending observation asks for another attempt and a failed one ends the run. -/
def attempt : Observation α → Except Setback α
  | .ready v => .ok v
  | .pending s => .error (.retryable (.status s none))
  | .failed s m => .error (.fatal (.status s m))

def map (f : α → β) : Observation α → Observation β
  | .ready v => .ready (f v)
  | .pending s => .pending s
  | .failed s m => .failed s m

end Observation

inductive StatusClass where
  | pending
  | ready
  | failed
  deriving DecidableEq, Repr

def StatusClass.text : StatusClass → String
  | .pending => "pending"
  | .ready => "ready"
  | .failed => "failed"

def asciiUpper (text : String) : String := text.map Char.toUpper

/-- Statuses that are pending and statuses that are ready, in upper case. -/
structure StatusTable where
  pending : List String := []
  ready : List String := []
  deriving Repr

namespace StatusTable

variable {α : Type}

def addPending (t : StatusTable) (statuses : List String) : StatusTable :=
  { t with pending := t.pending ++ statuses.map asciiUpper }

def addReady (t : StatusTable) (statuses : List String) : StatusTable :=
  { t with ready := t.ready ++ statuses.map asciiUpper }

def ofLists (pending ready : List String) : StatusTable :=
  ({} : StatusTable).addPending pending |>.addReady ready

/-- A status that is listed twice counts as ready. -/
def classOf (t : StatusTable) (status : String) : StatusClass :=
  if asciiUpper status ∈ t.ready then .ready
  else if asciiUpper status ∈ t.pending then .pending
  else .failed

/-- The observation of a status; its text is kept as it was seen. -/
def observe (t : StatusTable) (status : String) (message : Option String) (value : α) :
    Observation α :=
  match t.classOf status with
  | .ready => .ready value
  | .pending => .pending status
  | .failed => .failed status message

end StatusTable

end Settle
