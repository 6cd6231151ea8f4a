import Settle.Gate
import Settle.Policy
import Settle.Trace

/-!
# The retry loop

A retrier repeats a remote call until it succeeds, fails for good, runs out of time or is
withdrawn. Before every attempt it looks at the signal and waits for its turn at the gate. A
backoff wait never lasts past the end of the time budget, so the last attempt is made there.
-/

namespace Settle

/-- One answer of the remote side: what it says, how long it took, and whether the caller's
signal was raised meanwhile. -/
structure Reply (α : Type) where
  answer : α
  took : Nanos := 0
  interrupts : Bool := false

namespace Reply

variable {α β : Type}

def map (f : α → β) (r : Reply α) : Reply β :=
  { answer := f r.answer, took := r.took, interrupts := r.interrupts }

/-- The clock at the end of a call that started at `c`. -/
def finish (r : Reply α) (c : Clock) : Clock :=
  if r.interrupts then (c.pass r.took).raise else c.pass r.took

end Reply

/-- What a run works on: the caller's clock and the state of the gate. -/
structure World (σ : Type) where
  clock : Clock
  gate : σ

/-- The world at the end of a call that started in `w`. -/
def World.answered {σ α : Type} (w : World σ) (reply : Reply α) : World σ :=
  { w with clock := reply.finish w.clock }

/-- A finished run: its result, the world it left, and its events in order. -/
structure Run (σ α : Type) where
  result : Except Failure α
  world : World σ
  trace : Trace

namespace Run

variable {σ α β : Type}

/-- The run with earlier events in front. -/
def after (events : Trace) (r : Run σ α) : Run σ α := { r with trace := events ++ r.trace }

def map (f : α → β) (r : Run σ α) : Run σ β :=
  { result := r.result.map f, world := r.world, trace := r.trace }

end Run

/-- Everything that governs the repetition of one call. -/
structure Retrier (σ : Type) where
  policy : Policy
  gate : Gate σ
  action : String
  deadline : Option Instant := none
  stage : Stage := .issue
  /-- The random share of the jitter after each attempt, counted from one. -/
  draw : Nat → Binary64 := fun _ => 1

/-- One attempt either finishes the run or leads to the next attempt. -/
inductive Step (σ α : Type) where
  | done (run : Run σ α)
  | again (events : Trace) (world : World σ)

/-- Earlier events in front of those of a step. -/
def Step.after {σ α : Type} (events : Trace) : Step σ α → Step σ α
  | .done run => .done (run.after events)
  | .again more w => .again (events ++ more) w

namespace Retrier

variable {σ α : Type}

/-- Retries without a gate and without a name. -/
def ungated (policy : Policy) (deadline : Option Instant) : Retrier Unit where
  policy := policy
  gate := .unlimited
  action := ""
  deadline := deadline

/-- Where the time budget of a run ends: at the end of the policy's budget or at the deadline,
whichever is first. A budget that ends past the last point in time counts as a year. -/
def budgetEnd (r : Retrier σ) (start : Nanos) : Instant :=
  let byPolicy : Instant :=
    if ((start + r.policy.budget : Nanos) : Instant) ≤ Instant.latest then
      ((start + r.policy.budget : Nanos) : Instant)
    else ((start + Nanos.year : Nanos) : Instant)
  match r.deadline with
  | some d => min byPolicy d
  | none => byPolicy

def remaining (r : Retrier σ) (start now : Nanos) : Nanos :=
  (r.budgetEnd start - now).toNat

/-- What follows when attempt number `attempt` failed retryably at `now`. -/
def next (r : Retrier σ) (start : Nanos) (attempt : Nat) (now : Nanos) : Decision :=
  let left := r.remaining start now
  if left = 0 then .giveUp
  else
    match r.policy.next (r.draw attempt) attempt (now - start) with
    | .giveUp => .giveUp
    | .retryAfter delay => .retryAfter (min delay left)

def withdrawn (r : Retrier σ) (start : Nanos) (attempts : Nat) (w : World σ) : Run σ α where
  result := .error ⟨.cancelled, attempts, w.clock.now - start⟩
  world := w
  trace := [.cancelled r.action attempts]

/-- The end of an attempt, at `w`, with this answer; `attempt` counts from one. -/
def conclude (r : Retrier σ) (start : Nanos) (attempt : Nat) (w : World σ) :
    Except Setback α → Step σ α
  | .ok v => .done ⟨.ok v, w, [.succeeded r.action attempt (w.clock.now - start)]⟩
  | .error (.fatal cause) =>
    .done ⟨.error ⟨cause.reason, attempt, w.clock.now - start⟩, w,
      [.refused r.action attempt cause]⟩
  | .error (.retryable cause) =>
    match r.next start attempt w.clock.now with
    | .giveUp =>
      .done ⟨.error ⟨.timedOut cause, attempt, w.clock.now - start⟩, w,
        [.exhausted r.action attempt (w.clock.now - start) cause]⟩
    | .retryAfter delay =>
      .again [.retrying r.action attempt w.clock.now delay cause]
        { w with clock := w.clock.wait delay }

/-- The wait for the turn of an attempt that begins in `w`. -/
def turnWait (r : Retrier σ) (w : World σ) : Nanos :=
  (r.gate.reserve r.action w.clock.now w.gate).1

/-- The booking of that turn. -/
def booking (r : Retrier σ) (w : World σ) : Event :=
  .reserved r.stage r.action w.clock.now (r.turnWait w)
    (r.gate.announces && r.turnWait w != 0)

/-- The world when the wait for the turn is over; a turn that is due at once is not waited for. -/
def takeTurn (r : Retrier σ) (w : World σ) : World σ where
  clock := if r.turnWait w = 0 then w.clock else w.clock.wait (r.turnWait w)
  gate := (r.gate.reserve r.action w.clock.now w.gate).2

/-- The end of an attempt that does not come to its call, because the signal is raised by then. -/
def withdrawal? (r : Retrier σ) (start : Nanos) (made : Nat) (w : World σ) : Option (Run σ α) :=
  if w.clock.raised then some (r.withdrawn start made w)
  else if (r.takeTurn w).clock.raised then
    some ((r.withdrawn start made (r.takeTurn w)).after [r.booking w])
  else none

/-- The attempt after `made` others. -/
def attempt (r : Retrier σ) (script : Nat → Reply (Except Setback α)) (start : Nanos)
    (made : Nat) (w : World σ) : Step σ α :=
  match r.withdrawal? start made w with
  | some run => .done run
  | none =>
    let turn := r.takeTurn w
    (r.conclude start (made + 1) (turn.answered (script made)) (script made).answer).after
      [r.booking w, .called r.stage turn.clock.now]

/-- At most `fuel` further calls after `made` others; `none` if they do not suffice. -/
def loop (r : Retrier σ) (script : Nat → Reply (Except Setback α)) (start : Nanos) :
    Nat → Nat → World σ → Option (Run σ α)
  | 0, made, w => r.withdrawal? start made w
  | fuel + 1, made, w =>
    match r.attempt script start made w with
    | .done run => some run
    | .again events w => (loop r script start fuel (made + 1) w).map (Run.after events)

/-- As many calls as 32 bits count. -/
def maxAttempts : Nat := Nat.pow 2 32 - 1

/-- Runs a script, whose entry `n` is the answer to call number `n` from zero, until it ends.
`none` if calls can no longer be counted, or if neither the end of the policy's budget nor the
year that stands in for it can be held. -/
def run (r : Retrier σ) (script : Nat → Reply (Except Setback α)) (w : World σ) :
    Option (Run σ α) :=
  if ((w.clock.now + min r.policy.budget .year : Nanos) : Instant) ≤ Instant.latest then
    r.loop script w.clock.now maxAttempts 0 w
  else none

end Retrier

end Settle
