import Settle.Cause
import Settle.Time.Text

/-!
# How a run fails

A failure keeps the reason, the number of attempts and the time they took. Retryable causes
show only as the last cause of a run that ran out of time.
-/

namespace Settle

/-- Why a run ended without a value. -/
inductive Reason where
  /-- The remote side refused. -/
  | remote (error : RemoteError)
  /-- The resource does not exist. -/
  | notFound (error : RemoteError)
  /-- The resource settled in a status that is not wanted. -/
  | terminal (status : String) (message : Option String)
  /-- The time budget was spent; `last` is the cause of the last attempt. -/
  | timedOut (last : Cause)
  /-- The caller withdrew the run. -/
  | cancelled
  deriving DecidableEq, Repr

structure Failure where
  reason : Reason
  attempts : Nat
  elapsed : Nanos
  deriving DecidableEq, Repr

/-- A fatal cause ends a run for the reason of its own kind. -/
def Cause.reason : Cause → Reason
  | .remote e => .remote e
  | .missing e => .notFound e
  | .status s m => .terminal s m

namespace Reason

/-- The remote error behind a reason, also the last one before the time ran out. -/
def remoteError? : Reason → Option RemoteError
  | .remote e | .notFound e => some e
  | .timedOut last => last.remoteError?
  | .terminal .. | .cancelled => none

/-- The remote error that a reason stands for by itself. -/
def source? : Reason → Option RemoteError
  | .remote e | .notFound e => some e
  | .terminal .. | .timedOut _ | .cancelled => none

end Reason

namespace Failure

def isTimeout (f : Failure) : Bool := f.reason matches .timedOut _

def isNotFound (f : Failure) : Bool := f.reason matches .notFound _

def isCancelled (f : Failure) : Bool := f.reason matches .cancelled

/-- `3 attempt(s), 1.5s`. -/
def effort (f : Failure) : String :=
  toString f.attempts ++ " attempt(s), " ++ f.elapsed.text

def text (f : Failure) : String :=
  match f.reason with
  | .remote e => e.text ++ " (after " ++ f.effort ++ ")"
  | .notFound e => "resource does not exist: " ++ e.text ++ " (after " ++ f.effort ++ ")"
  | .terminal s m =>
    let message := match m with
      | some m => ": " ++ m
      | none => ""
    "resource reached failed state " ++ s ++ message ++ " (after " ++ f.effort ++ ")"
  | .timedOut last => "timed out after " ++ f.effort ++ "; last error: " ++ last.text
  | .cancelled => "cancelled after " ++ f.effort

end Failure

end Settle
