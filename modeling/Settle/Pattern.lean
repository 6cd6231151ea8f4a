/-!
# Patterns of remote work

A direct call is retried until it is answered. A change that takes effect later is issued first
and then polled until the resource settles.
-/

namespace Settle

/-- How a caller works on a resource. -/
inductive Pattern where
  /-- Change something, then poll until it settles. -/
  | mutateThenPoll
  /-- Delete something, then poll until it is gone. -/
  | deleteThenPoll
  | read
  | write
  | delete
  deriving DecidableEq, Repr

namespace Pattern

/-- Whether the pattern has a polling phase. -/
def polls : Pattern → Bool
  | .mutateThenPoll | .deleteThenPoll => true
  | .read | .write | .delete => false

/-- The name in scenarios. -/
def key : Pattern → String
  | .mutateThenPoll => "mutate_then_poll"
  | .deleteThenPoll => "delete_then_poll"
  | .read => "read"
  | .write => "write"
  | .delete => "delete"

/-- The name in reports and logs. -/
def title : Pattern → String
  | .mutateThenPoll => "MutateThenPoll"
  | .deleteThenPoll => "DeleteThenPoll"
  | .read => "Read"
  | .write => "Write"
  | .delete => "Delete"

def all : List Pattern := [.mutateThenPoll, .deleteThenPoll, .read, .write, .delete]

end Pattern

end Settle
