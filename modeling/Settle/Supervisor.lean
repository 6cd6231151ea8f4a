import Settle.Registry
import Settle.Retrier

/-!
# Supervision over time

A supervisor keeps a registry, the time, and the cancellations that are still to come. Each
happens as soon as its time is reached; an operation that is cancelled by id is looked up only
then.
-/

namespace Settle

/-- What a cancellation is aimed at. -/
inductive Target where
  | signal (s : Signal)
  | operation (id : String)
  deriving DecidableEq, Repr

structure Supervisor where
  now : Nanos := 0
  registry : Registry := {}
  /-- Cancellations to come, by time and then in the order in which they were asked for. -/
  pending : List (Nanos × Target) := []
  deriving Repr

namespace Supervisor

/-- The signal that a target stands for at present. -/
def signal? (s : Supervisor) : Target → Option Signal
  | .signal x => some x
  | .operation id => s.registry.operations.lookup id

/-- Asks for a cancellation after `span`. -/
def schedule (s : Supervisor) (span : Nanos) (target : Target) : Supervisor :=
  let time := s.now + span
  { s with
    pending := s.pending.takeWhile (·.1 ≤ time) ++ (time, target) ::
      s.pending.dropWhile (·.1 ≤ time) }

/-- When the signal will be raised if nothing else is asked for. -/
def due? (s : Supervisor) (x : Signal) : Option Nanos :=
  (s.pending.find? fun p => s.signal? p.2 = some x).map (·.1)

/-- Carries out the cancellations whose time has come. -/
def settle (s : Supervisor) : Supervisor :=
  let came := s.pending.takeWhile (·.1 ≤ s.now)
  { s with
    registry := came.foldl (fun r p =>
      match s.signal? p.2 with
      | some x => r.raise x
      | none => r) s.registry
    pending := s.pending.dropWhile (·.1 ≤ s.now) }

def advance (s : Supervisor) (span : Nanos) : Supervisor :=
  if span = 0 then s else ({ s with now := s.now + span }).settle

def clock (s : Supervisor) (x : Signal) : Clock where
  now := s.now
  raised := s.registry.isRaised x
  due := s.due? x

/-- Takes over the time and the signal of a caller's clock. -/
def follow (s : Supervisor) (x : Signal) (c : Clock) : Supervisor :=
  let s := ({ s with now := c.now }).settle
  if c.raised then { s with registry := s.registry.raise x } else s

/-- Waits on a signal; the answer says whether it was raised. -/
def sleep (s : Supervisor) (x : Signal) (span : Nanos) : Bool × Supervisor :=
  if s.registry.isRaised x then (true, s)
  else
    let c := (s.clock x).wait span
    (c.raised, s.follow x c)

/-- Runs a script on behalf of a context, without a gate. -/
def run {α : Type} (s : Supervisor) (ctx : Context) (policy : Policy)
    (script : Nat → Reply (Except Setback α)) : Option (Run Unit α × Supervisor) :=
  ((Retrier.ungated policy ctx.deadline).run script ⟨s.clock ctx.signal, ()⟩).map fun run =>
    let waited := run.trace.any fun
      | .retrying .. => true
      | _ => false
    let followed := s.follow ctx.signal run.world.clock
    let quiet := if run.world.clock.raised then
        { s with registry := s.registry.raise ctx.signal }
      else s
    (run, if waited || run.world.clock.now != s.now then followed else quiet)

end Supervisor

end Settle
