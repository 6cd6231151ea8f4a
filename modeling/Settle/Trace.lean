import Settle.Pattern
import Settle.Phase

/-!
# What happens during a run

A run leaves the list of its events in order: turns booked, calls made, and what the loop
decided. The log is read off the events.
-/

namespace Settle

/-- Which of the two calls of a pattern is meant; direct calls are issued. -/
inductive Stage where
  | issue
  | poll
  deriving DecidableEq, Repr

inductive Event where
  /-- A turn was booked; `announced` if the gate noted the wait. -/
  | reserved (stage : Stage) (action : String) (time wait : Nanos) (announced : Bool)
  /-- A remote call started. -/
  | called (stage : Stage) (time : Nanos)
  /-- The last attempt succeeded. -/
  | succeeded (action : String) (attempts : Nat) (elapsed : Nanos)
  /-- The last attempt failed for good. -/
  | refused (action : String) (attempts : Nat) (cause : Cause)
  /-- The last attempt failed with the time budget spent. -/
  | exhausted (action : String) (attempts : Nat) (elapsed : Nanos) (cause : Cause)
  /-- An attempt failed and a wait before the next one began. -/
  | retrying (action : String) (attempts : Nat) (time delay : Nanos) (cause : Cause)
  /-- The run was withdrawn. -/
  | cancelled (action : String) (attempts : Nat)
  /-- A reconciliation with a polling phase began. -/
  | opened (action : String)
  /-- A reconciliation went from one phase to the next. -/
  | advanced (action : String) (source target : Phase)
  /-- A scenario began. -/
  | rehearsed (pattern : Pattern) (action : String)
  /-- A scenario has poll steps that its pattern never uses. -/
  | pollStepsIgnored (pattern : Pattern)
  deriving DecidableEq, Repr

inductive LogLevel where
  | debug
  | info
  | warn
  deriving DecidableEq, Repr

def LogLevel.text : LogLevel → String
  | .debug => "DEBUG"
  | .info => "INFO"
  | .warn => "WARN"

inductive LogValue where
  | number (n : Nat)
  | text (s : String)
  deriving DecidableEq, Repr

/-- A log entry: a message, and named values beside it. -/
structure LogEntry where
  level : LogLevel
  message : String
  fields : List (String × LogValue)
  deriving DecidableEq, Repr

namespace Event

/-- The log entry of an event; calls, and turns that the gate did not note, have none. -/
def logEntry? : Event → Option LogEntry
  | .reserved _ action _ wait announced =>
    if announced then
      some ⟨.debug, "rate limit reached",
        [("action", .text action), ("wait_ms", .number (Nanos.wholeMillis wait))]⟩
    else none
  | .called .. => none
  | .succeeded action attempts elapsed =>
    some ⟨.debug, "remote call succeeded",
      [("action", .text action), ("attempts", .number attempts),
        ("elapsed_ms", .number (Nanos.wholeMillis elapsed))]⟩
  | .refused action attempts cause =>
    some ⟨.warn, "fatal error, not retrying: " ++ cause.text,
      [("action", .text action), ("attempts", .number attempts)]⟩
  | .exhausted action attempts elapsed cause =>
    some ⟨.warn, "retry budget exhausted: " ++ cause.text,
      [("action", .text action), ("attempts", .number attempts),
        ("elapsed_ms", .number (Nanos.wholeMillis elapsed))]⟩
  | .retrying action attempts _ delay cause =>
    some ⟨.debug, "retrying: " ++ cause.text,
      [("action", .text action), ("attempts", .number attempts),
        ("delay_ms", .number (Nanos.wholeMillis delay))]⟩
  | .cancelled action attempts =>
    some ⟨.info, "cancelled", [("action", .text action), ("attempts", .number attempts)]⟩
  | .opened action =>
    some ⟨.debug, "reconcile started",
      [("action", .text action), ("phase", .text Phase.issuing.text)]⟩
  | .advanced action source target =>
    some ⟨.debug, "phase transition",
      [("action", .text action), ("from", .text source.text), ("to", .text target.text)]⟩
  | .rehearsed pattern action =>
    some ⟨.info, "running scenario", [("mode", .text pattern.title), ("action", .text action)]⟩
  | .pollStepsIgnored pattern =>
    some ⟨.warn, "scenario poll steps ignored for direct-retry mode",
      [("mode", .text pattern.title)]⟩

/-- Whether the event is a remote call of the given stage. -/
def isCall (stage : Stage) : Event → Bool
  | .called s _ => s = stage
  | _ => false

/-- The action and the wait of a booked turn. -/
def reservation? : Event → Option (String × Nanos)
  | .reserved _ action _ wait _ => some (action, wait)
  | _ => none

end Event

abbrev Trace := List Event

namespace Trace

def log (t : Trace) : List LogEntry := t.filterMap Event.logEntry?

def calls (t : Trace) (stage : Stage) : Nat := t.countP (Event.isCall stage)

def reservations (t : Trace) : List (String × Nanos) := t.filterMap Event.reservation?

end Trace

end Settle
