/-!
# Why an attempt produced no value

A remote error is what the other side answered. A cause is what it meant for one attempt, and a
setback says whether another attempt may help.
-/

namespace Settle

/-- An error answered by the remote side; its code is a dotted path. -/
structure RemoteError where
  code : String
  message : String
  requestId : Option String := none
  deriving DecidableEq, Repr

/-- `[Code] message (request id id)`. -/
def RemoteError.text (e : RemoteError) : String :=
  let request := match e.requestId with
    | some id => " (request id " ++ id ++ ")"
    | none => ""
  "[" ++ e.code ++ "] " ++ e.message ++ request

/-- Why one attempt did not produce a value. -/
inductive Cause where
  /-- The remote side answered an error. -/
  | remote (error : RemoteError)
  /-- The resource is in a status other than the wanted one. -/
  | status (status : String) (message : Option String)
  /-- The resource does not exist. -/
  | missing (error : RemoteError)
  deriving DecidableEq, Repr

namespace Cause

/-- The remote error behind a cause. -/
def remoteError? : Cause → Option RemoteError
  | .remote e | .missing e => some e
  | .status .. => none

def text : Cause → String
  | .remote e => e.text
  | .status s none => "status " ++ s
  | .status s (some m) => "status " ++ s ++ ": " ++ m
  | .missing e => "not found: " ++ e.text

end Cause

/-- A failed attempt as a retry loop sees it. -/
inductive Setback where
  /-- Another attempt may succeed. -/
  | retryable (cause : Cause)
  /-- No further attempt is made. -/
  | fatal (cause : Cause)
  deriving DecidableEq, Repr

namespace Setback

def cause : Setback → Cause
  | .retryable c | .fatal c => c

def isRetryable : Setback → Bool
  | .retryable _ => true
  | .fatal _ => false

end Setback

end Settle
