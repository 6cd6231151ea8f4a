import Settle.Reconciler

/-!
# Scenarios

A scenario is a rehearsal of one pattern: it scripts the answers of the remote side and names
the statuses that are pending and ready. Running it takes its own steps in place of a remote
side and reports the calls made, the time taken and the outcome.
-/

namespace Settle

/-- One scripted answer. -/
inductive ScriptStep where
  | ok
  /-- An error with this code. -/
  | error (code : String)
  /-- Success, with the resource in this status. -/
  | status (status : String)
  deriving DecidableEq, Repr

structure Scenario where
  pattern : Pattern := .mutateThenPoll
  action : String
  /-- The action of the polls, if it is another one. -/
  pollAction : Option String := none
  idempotent : Bool := true
  issue : List ScriptStep := []
  poll : List ScriptStep := []
  pending : List String := []
  ready : List String := []
  /-- A time budget, in seconds, in place of those of all policies. -/
  budget : Option Binary64 := none
  deriving DecidableEq

namespace ScriptStep

/-- The step for call number `n` from zero; a script without steps always succeeds. -/
def ofCall (steps : List ScriptStep) (n : Nat) : ScriptStep := (scripted? steps n).getD .ok

/-- The error of a scripted failure; its request id counts the calls. -/
def failure (code : String) (n : Nat) : RemoteError where
  code := code
  message := "scripted failure"
  requestId := some ("sim-" ++ toString (n + 1))

/-- The answer to a direct call: the status, if the step has one. -/
def answer (step : ScriptStep) (n : Nat) : Except RemoteError (Option String) :=
  match step with
  | .ok => .ok none
  | .status s => .ok (some s)
  | .error code => .error (failure code n)

def observe (table : StatusTable) (step : ScriptStep) (n : Nat) :
    Except RemoteError (Observation (Option String)) :=
  match step with
  | .ok => .ok (.ready none)
  | .status s => .ok (table.observe s none (some s))
  | .error code => .error (failure code n)

end ScriptStep

/-- What running a scenario showed; the outcome is the last status, if there was one. -/
structure Report where
  pattern : Pattern
  issueCalls : Nat
  pollCalls : Nat
  elapsed : Nanos
  outcome : Except Failure (Option String)

namespace Report

def phase (r : Report) : Phase := .after r.outcome

end Report

namespace Scenario

variable {σ : Type}

def effectivePollAction (s : Scenario) : String := s.pollAction.getD s.action

/-- The first or only call of the scenario. -/
def operation (s : Scenario) : Operation where
  action := s.action
  idempotent := s.idempotent

/-- The polls of the scenario; a poll may always be repeated. -/
def pollOperation (s : Scenario) : Operation where
  action := s.effectivePollAction

def table (s : Scenario) : StatusTable := .ofLists s.pending s.ready

/-- The reconciler with the scenario's time budget. -/
def budgeted (s : Scenario) (r : Reconciler σ) : Reconciler σ :=
  match s.budget with
  | some secs => { r with policies := r.policies.withBudget (.ofConfigured secs) }
  | none => r

def issueScript (s : Scenario) : Script (Option String) := fun n =>
  { answer := (ScriptStep.ofCall s.issue n).answer n }

def pollScript (s : Scenario) : Script (Observation (Option String)) := fun n =>
  { answer := (ScriptStep.ofCall s.poll n).observe s.table n }

/-- The same answers without their values. -/
def withoutValues {α : Type} (script : Script α) : Script Unit := fun n =>
  (script n).map (Except.map fun _ => ())

def run (s : Scenario) (r : Reconciler σ) (w : World σ) : Option (Run σ (Option String)) :=
  let r := s.budgeted r
  match s.pattern with
  | .read => r.read s.operation s.issueScript w
  | .write => r.write s.operation s.issueScript w
  | .delete => (r.delete s.operation (withoutValues s.issueScript) w).map (Run.map fun () => none)
  | .mutateThenPoll =>
    r.mutateThenPoll s.operation s.issueScript s.pollOperation (fun _ => s.pollScript) w
  | .deleteThenPoll =>
    (r.deleteThenPoll s.operation (withoutValues s.issueScript) s.pollOperation
      (fun n => (s.pollScript n).map (Except.map (Observation.map fun _ => ()))) w).map
      (Run.map fun () => none)

/-- Runs the scenario from `w`: the report, the world after, and the events. -/
def rehearse (s : Scenario) (r : Reconciler σ) (w : World σ) :
    Option (Report × World σ × Trace) :=
  (s.run r w).map fun run =>
    ({ pattern := s.pattern
       issueCalls := run.trace.calls .issue
       pollCalls := run.trace.calls .poll
       elapsed := run.world.clock.now - w.clock.now
       outcome := run.result },
     run.world,
     .rehearsed s.pattern s.action :: run.trace)

end Scenario

end Settle
