import Settle.Clock

/-!
# Gates before remote calls

A gate is asked before every attempt and answers how long the caller has to wait for its turn.
It keeps a state of its own, so a turn may depend on all turns before it.
-/

namespace Settle

/-- A source of turns, by action and point in time. -/
structure Gate (σ : Type) where
  /-- Books a turn: the wait until it, and the state after. -/
  reserve : String → Nanos → σ → Nanos × σ
  /-- Whether waits that are not zero are noted in the log. -/
  announces : Bool := false

/-- The step of a script for call number `n`, counted from zero: one step for each call, and
the last step for all calls after it. -/
def scripted? {α : Type} (steps : List α) (n : Nat) : Option α :=
  steps[min n (steps.length - 1)]?

namespace Gate

/-- Nobody waits. -/
def unlimited : Gate Unit where
  reserve _ _ s := (0, s)

/-- Waits in a fixed order, whatever the action. -/
def ofList (waits : List Nanos) : Gate Nat where
  reserve _ _ n := ((scripted? waits n).getD 0, n + 1)

/-- Books a turn and lets the wait for it go by. -/
def check {σ : Type} (g : Gate σ) (action : String) (c : Clock) (s : σ) : Clock × σ :=
  let (wait, s) := g.reserve action c.now s
  (c.pass wait, s)

end Gate

end Settle
