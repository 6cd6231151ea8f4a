import Settle.ErrorTable

/-!
# What becomes of an error

The same error code leads to different steps at different kinds of calls: what is absent is
gone for a deletion, not there yet for a poll, and missing for a read.
-/

namespace Settle

/-- The kind of a call, which decides what an error means. -/
inductive CallKind where
  | read
  | write
  | delete
  | poll
  deriving DecidableEq, Repr

namespace CallKind

def key : CallKind → String
  | .read => "read"
  | .write => "write"
  | .delete => "delete"
  | .poll => "poll"

def all : List CallKind := [.read, .write, .delete, .poll]

end CallKind

/-- What follows an error. -/
inductive Outlook where
  /-- The call counts as a success. -/
  | alreadyDeleted
  /-- Another attempt, since the resource may yet appear. -/
  | notVisibleYet
  /-- Another attempt after a backoff. -/
  | backoff
  /-- The run ends since there is no resource. -/
  | notFound
  /-- The run ends with the error. -/
  | fatal
  deriving DecidableEq, Repr

def Outlook.text : Outlook → String
  | .alreadyDeleted => "stop: treated as already deleted"
  | .notVisibleYet => "retry: resource not visible yet"
  | .backoff => "retry with backoff"
  | .notFound => "stop: not found"
  | .fatal => "stop: fatal"

/-- What follows a failed attempt while there is time left. -/
def Setback.outlook : Setback → Outlook
  | .retryable (.missing _) => .notVisibleYet
  | .retryable _ => .backoff
  | .fatal (.missing _) => .notFound
  | .fatal _ => .fatal

/-- What follows a remote error at a call of the given kind. -/
def ErrorTable.outlook (t : ErrorTable) (op : Operation) (kind : CallKind) (e : RemoteError) :
    Outlook :=
  match kind with
  | .read => (t.readSetback op e).outlook
  | .write => (t.writeSetback op e).outlook
  | .poll => (t.pollSetback op e).outlook
  | .delete =>
    match t.deleteSetback? op e with
    | some s => s.outlook
    | none => .alreadyDeleted

end Settle
