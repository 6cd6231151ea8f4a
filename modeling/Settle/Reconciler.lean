import Settle.ErrorTable
import Settle.Retrier
import Settle.StatusTable

/-!
# Patterns of reconciliation

A reconciler knows how errors are classified, how each kind of call is retried and which gate
all calls share. It offers direct reads, writes and deletions, and the two patterns that issue
a change and then poll for its effect. Both phases of a pattern share the gate, the signal and
the deadline; each has a time budget of its own.
-/

namespace Settle

/-- A retry policy for each kind of call. -/
structure Policies where
  read : Policy := .read
  write : Policy := .write
  poll : Policy := .poll
  deriving DecidableEq

namespace Policies

def uniform (p : Policy) : Policies := ⟨p, p, p⟩

def withBudget (p : Policies) (budget : Nanos) : Policies :=
  ⟨p.read.withBudget budget, p.write.withBudget budget, p.poll.withBudget budget⟩

end Policies

/-- What a remote call answers to each call, counted from zero. -/
abbrev Script (α : Type) := Nat → Reply (Except RemoteError α)

structure Reconciler (σ : Type) where
  gate : Gate σ
  errors : ErrorTable := .standard
  policies : Policies := {}
  deadline : Option Instant := none
  /-- The random share of the jitter after each attempt of a stage. -/
  draw : Stage → Nat → Binary64 := fun _ _ => 1

namespace Reconciler

variable {σ α β : Type}

/-- The retrier for the first or the only call of a pattern. -/
def issuer (r : Reconciler σ) (policy : Policy) (op : Operation) : Retrier σ where
  policy := policy
  gate := r.gate
  action := op.action
  deadline := r.deadline
  stage := .issue
  draw := r.draw .issue

/-- The retrier for the polls of a pattern. -/
def poller (r : Reconciler σ) (op : Operation) : Retrier σ where
  policy := r.policies.poll
  gate := r.gate
  action := op.action
  deadline := r.deadline
  stage := .poll
  draw := r.draw .poll

/-- What the answer to a read means to the loop around it. -/
def readAnswer (r : Reconciler σ) (op : Operation) : Except RemoteError α → Except Setback α
  | .ok v => .ok v
  | .error e => .error (r.errors.readSetback op e)

def writeAnswer (r : Reconciler σ) (op : Operation) : Except RemoteError α → Except Setback α
  | .ok v => .ok v
  | .error e => .error (r.errors.writeSetback op e)

/-- What is absent counts as deleted. -/
def deleteAnswer (r : Reconciler σ) (op : Operation) :
    Except RemoteError Unit → Except Setback Unit
  | .ok () => .ok ()
  | .error e =>
    match r.errors.deleteSetback? op e with
    | some s => .error s
    | none => .ok ()

def pollAnswer (r : Reconciler σ) (op : Operation) :
    Except RemoteError (Observation α) → Except Setback α
  | .ok seen => seen.attempt
  | .error e => .error (r.errors.pollSetback op e)

/-- A poll that waits for the end of a resource is content with its absence. -/
def goneAnswer (r : Reconciler σ) (op : Operation) :
    Except RemoteError (Observation Unit) → Except Setback Unit
  | .ok seen => seen.attempt
  | .error e =>
    match r.errors.gonePollSetback? op e with
    | some s => .error s
    | none => .ok ()

def read (r : Reconciler σ) (op : Operation) (script : Script α) (w : World σ) :
    Option (Run σ α) :=
  (r.issuer r.policies.read op).run (fun n => (script n).map (r.readAnswer op)) w

def write (r : Reconciler σ) (op : Operation) (script : Script α) (w : World σ) :
    Option (Run σ α) :=
  (r.issuer r.policies.write op).run (fun n => (script n).map (r.writeAnswer op)) w

def delete (r : Reconciler σ) (op : Operation) (script : Script Unit) (w : World σ) :
    Option (Run σ Unit) :=
  (r.issuer r.policies.write op).run (fun n => (script n).map (r.deleteAnswer op)) w

/-- Polls until an observation is ready or failed. -/
def awaitReady (r : Reconciler σ) (op : Operation) (script : Script (Observation β))
    (w : World σ) : Option (Run σ β) :=
  (r.poller op).run (fun n => (script n).map (r.pollAnswer op)) w

/-- Polls until an observation is ready or failed, or the resource is absent. -/
def awaitGone (r : Reconciler σ) (op : Operation) (script : Script (Observation Unit))
    (w : World σ) : Option (Run σ Unit) :=
  (r.poller op).run (fun n => (script n).map (r.goneAnswer op)) w

/-- An issued change and, once it is accepted, the polls for its effect. Phases are noted under
`action`. -/
def twoPhase (action : String) (issued : Option (Run σ α))
    (poll : α → World σ → Option (Run σ β)) : Option (Run σ β) :=
  match issued with
  | none => none
  | some first =>
    match first.result with
    | .error f =>
      some
        { result := .error f
          world := first.world
          trace := .opened action :: first.trace ++
            [.advanced action .issuing (.ofReason f.reason)] }
    | .ok accepted =>
      match poll accepted first.world with
      | none => none
      | some second =>
        some
          { result := second.result
            world := second.world
            trace := .opened action :: first.trace ++
              .advanced action .issuing .polling :: second.trace ++
              [.advanced action .polling (.after second.result)] }

/-- Issues a change and polls until it settles; the polls get the value that the change was
accepted with. -/
def mutateThenPoll (r : Reconciler σ) (issueOp : Operation) (issue : Script α)
    (pollOp : Operation) (poll : α → Script (Observation β)) (w : World σ) :
    Option (Run σ β) :=
  twoPhase issueOp.action (r.write issueOp issue w) fun accepted w =>
    r.awaitReady pollOp (poll accepted) w

/-- Issues a deletion and polls until the resource is gone. -/
def deleteThenPoll (r : Reconciler σ) (issueOp : Operation) (issue : Script Unit)
    (pollOp : Operation) (poll : Script (Observation Unit)) (w : World σ) :
    Option (Run σ Unit) :=
  twoPhase issueOp.action (r.delete issueOp issue w) fun () w => r.awaitGone pollOp poll w

end Reconciler

end Settle
