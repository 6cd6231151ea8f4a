import Settle.Failure

/-!
# Phases of a reconciliation

A reconciliation that polls goes from issuing a change to polling it and ends settled, failed
or timed out. No phase follows a final one.
-/

namespace Settle

inductive Phase where
  /-- The change is being requested. -/
  | issuing
  /-- The change was accepted and its effect is watched. -/
  | polling
  | settled
  | failed
  | timedOut
  deriving DecidableEq, Repr

namespace Phase

def text : Phase → String
  | .issuing => "issuing"
  | .polling => "polling"
  | .settled => "settled"
  | .failed => "failed"
  | .timedOut => "timed-out"

def isFinal : Phase → Bool
  | .settled | .failed | .timedOut => true
  | .issuing | .polling => false

/-- Whether a phase may be followed by another; only polling can settle. -/
def canAdvance : Phase → Phase → Bool
  | .issuing, .issuing | .issuing, .polling | .issuing, .failed | .issuing, .timedOut => true
  | .polling, .polling | .polling, .settled | .polling, .failed | .polling, .timedOut => true
  | _, _ => false

/-- The final phase of a failed run; a cancelled run has failed. -/
def ofReason : Reason → Phase
  | .timedOut _ => .timedOut
  | .remote _ | .notFound _ | .terminal .. | .cancelled => .failed

/-- The final phase of a finished run. -/
def after {α : Type} : Except Failure α → Phase
  | .ok _ => .settled
  | .error f => ofReason f.reason

end Phase

end Settle
