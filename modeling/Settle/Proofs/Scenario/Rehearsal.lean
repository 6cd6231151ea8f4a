import Settle.Proofs.Reconciler.Reading
import Settle.Proofs.Retrier.Values
import Settle.Scenario

/-! # How a scenario runs

A scenario runs the loop of its issue and, if its pattern polls and the issue settles, that of its
polls. The calls are answered at once, by the steps of the script that belong to their numbers. -/

namespace Settle

open Reconciler (unpolled polled)

theorem Phase.after_map {α β : Type} (f : α → β) (result : Except Failure α) :
    Phase.after (result.map f) = Phase.after result := by
  cases result <;> rfl

namespace Reconciler

variable {σ : Type}

section answers

variable (r : Reconciler σ) (op : Operation) (e : RemoteError)

theorem deleteAnswer_error : r.deleteAnswer op (.error e) = r.errors.meaning op (.ok ()) e := by
  rw [← deleteAnswer_meaning]
  exact (congrFun Except.map_id _).symm

theorem goneAnswer_error : r.goneAnswer op (.error e) = r.errors.meaning op (.ok ()) e := by
  rw [← goneAnswer_meaning]
  exact (congrFun Except.map_id _).symm

end answers

/-- Nobody waits for a turn, and the policies are the usual ones. -/
def usual : Reconciler Unit where
  gate := .unlimited

section phases

variable {α β γ δ : Type}

theorem unpolled_map (action : String) (first : Run σ α) (f : Failure) (g : α → γ) (k : β → δ) :
    (unpolled action first f : Run σ β).map k = unpolled action (first.map g) f := rfl

theorem polled_map (action : String) (first : Run σ α) (second : Run σ β) (g : α → γ)
    (k : β → δ) :
    (polled action first second).map k = polled action (first.map g) (second.map k) := by
  simp only [polled, Run.map, Phase.after_map]

end phases

end Reconciler

namespace Scenario

variable {σ : Type} {s : Scenario} {r : Reconciler σ} {w : World σ} {run : Run σ (Option String)}
  {n : Nat}

/-! ## Steps as the loops read them -/

/-- The status that an outcome shows; that of a deletion shows none. -/
def kept (s : Scenario) (status : String) : Option String :=
  match s.pattern with
  | .delete | .deleteThenPoll => none
  | .read | .write | .mutateThenPoll => some status

def script (s : Scenario) : Stage → List ScriptStep
  | .issue => s.issue
  | .poll => s.poll

/-- The step for call number `n`, counted from one: the last step goes on for ever, and a script
without steps always succeeds. -/
def step (s : Scenario) (stage : Stage) (n : Nat) : ScriptStep :=
  ((s.script stage)[min n (s.script stage).length - 1]?).getD .ok

theorem ofCall_eq_step (s : Scenario) (stage : Stage) (n : Nat) :
    ScriptStep.ofCall (s.script stage) n = s.step stage (n + 1) := by
  have hindex : min n ((s.script stage).length - 1) = min (n + 1) (s.script stage).length - 1 := by
    omega
  rw [ScriptStep.ofCall, scripted?, hindex, step]

def stageOperation (s : Scenario) : Stage → Operation
  | .issue => s.operation
  | .poll => s.pollOperation

/-- What it means to the loop of a stage that the resource is absent. -/
def absence (s : Scenario) (e : RemoteError) (stage : Stage) : Except Setback (Option String) :=
  match s.pattern, stage with
  | .read, _ => .error (.fatal (.missing e))
  | .mutateThenPoll, .poll => .error (.retryable (.missing e))
  | .write, _ | .mutateThenPoll, .issue => .error (.fatal (.remote e))
  | .delete, _ | .deleteThenPoll, _ => .ok none

/-- What the loop of a stage makes of a scripted error. -/
def errorReading (s : Scenario) (t : ErrorTable) (stage : Stage) (e : RemoteError) :
    Except Setback (Option String) :=
  match t.judge (s.stageOperation stage) e with
  | .retryable => .error (.retryable (.remote e))
  | .fatal => .error (.fatal (.remote e))
  | .absent => s.absence e stage

/-- What the loop of a stage makes of the answer to call number `n` from zero. -/
def reading (s : Scenario) (t : ErrorTable) (stage : Stage) (n : Nat) :
    Except Setback (Option String) :=
  match ScriptStep.ofCall (s.script stage) n, stage with
  | .ok, _ => .ok none
  | .status status, .issue => .ok (s.kept status)
  | .status status, .poll => (s.table.observe status none (s.kept status)).attempt
  | .error code, stage => s.errorReading t stage (ScriptStep.failure code n)

/-- The answers of the script, which take no time, as the loop of a stage reads them. -/
def replies (s : Scenario) (t : ErrorTable) (stage : Stage) :
    Nat → Reply (Except Setback (Option String)) :=
  fun n => { answer := s.reading t stage n }

section answers

variable (r)

theorem readAnswer_eq (hp : s.pattern = .read) (n : Nat) :
    r.readAnswer s.operation ((ScriptStep.ofCall s.issue n).answer n) =
      s.reading r.errors .issue n := by
  simp only [reading, script]
  cases ScriptStep.ofCall s.issue n with
  | ok => rfl
  | status status => simp [ScriptStep.answer, Reconciler.readAnswer, kept, hp]
  | error code =>
      simp only [ScriptStep.answer, Reconciler.readAnswer, ErrorTable.readSetback,
        ErrorTable.setback, errorReading, stageOperation]
      cases r.errors.judge s.operation (ScriptStep.failure code n) <;> simp [absence, hp]

theorem writeAnswer_eq (hp : s.pattern = .write ∨ s.pattern = .mutateThenPoll) (n : Nat) :
    r.writeAnswer s.operation ((ScriptStep.ofCall s.issue n).answer n) =
      s.reading r.errors .issue n := by
  simp only [reading, script]
  cases ScriptStep.ofCall s.issue n with
  | ok => rfl
  | status status =>
      rcases hp with hp | hp <;> simp [ScriptStep.answer, Reconciler.writeAnswer, kept, hp]
  | error code =>
      simp only [ScriptStep.answer, Reconciler.writeAnswer, ErrorTable.writeSetback,
        ErrorTable.setback, errorReading, stageOperation]
      rcases hp with hp | hp <;>
        cases r.errors.judge s.operation (ScriptStep.failure code n) <;> simp [absence, hp]

theorem errorReading_of_deletion (hp : s.pattern = .delete ∨ s.pattern = .deleteThenPoll)
    (t : ErrorTable) (stage : Stage) (e : RemoteError) :
    s.errorReading t stage e =
      (t.meaning (s.stageOperation stage) (.ok ()) e).map fun () => none := by
  simp only [errorReading, ErrorTable.meaning]
  rcases hp with hp | hp <;>
    cases t.judge (s.stageOperation stage) e <;> simp [absence, hp, Except.map]

theorem deleteAnswer_eq (hp : s.pattern = .delete ∨ s.pattern = .deleteThenPoll) (n : Nat) :
    (r.deleteAnswer s.operation
        (((ScriptStep.ofCall s.issue n).answer n).map fun _ => ())).map (fun () => none) =
      s.reading r.errors .issue n := by
  simp only [reading, script]
  cases ScriptStep.ofCall s.issue n with
  | ok => rfl
  | status status =>
      rcases hp with hp | hp <;>
        simp [ScriptStep.answer, Reconciler.deleteAnswer, Except.map, kept, hp]
  | error code =>
      change (r.deleteAnswer s.operation (.error (ScriptStep.failure code n))).map _ =
        s.errorReading r.errors .issue (ScriptStep.failure code n)
      rw [errorReading_of_deletion hp, Reconciler.deleteAnswer_error]
      rfl

theorem pollAnswer_eq (hp : s.pattern = .mutateThenPoll) (n : Nat) :
    r.pollAnswer s.pollOperation ((ScriptStep.ofCall s.poll n).observe s.table n) =
      s.reading r.errors .poll n := by
  simp only [reading, script]
  cases ScriptStep.ofCall s.poll n with
  | ok => rfl
  | status status => simp [ScriptStep.observe, Reconciler.pollAnswer, kept, hp]
  | error code =>
      simp only [ScriptStep.observe, Reconciler.pollAnswer, ErrorTable.pollSetback,
        ErrorTable.setback, errorReading, stageOperation]
      cases r.errors.judge s.pollOperation (ScriptStep.failure code n) <;> simp [absence, hp]

theorem goneAnswer_eq (hp : s.pattern = .deleteThenPoll) (n : Nat) :
    (r.goneAnswer s.pollOperation (((ScriptStep.ofCall s.poll n).observe s.table n).map
        (Observation.map fun _ => ()))).map (fun () => none) =
      s.reading r.errors .poll n := by
  simp only [reading, script]
  cases ScriptStep.ofCall s.poll n with
  | ok => rfl
  | status status =>
      change ((s.table.observe status none (some status)).map fun _ => ()).attempt.map _ = _
      rw [StatusTable.observe_map, ← Observation.attempt_map, StatusTable.observe_map]
      simp [kept, hp]
  | error code =>
      change (r.goneAnswer s.pollOperation (.error (ScriptStep.failure code n))).map _ =
        s.errorReading r.errors .poll (ScriptStep.failure code n)
      rw [errorReading_of_deletion (.inr hp), Reconciler.goneAnswer_error]
      rfl

end answers

/-! ## The loops of a scenario -/

theorem budgeted_errors (s : Scenario) (r : Reconciler σ) :
    (s.budgeted r).errors = r.errors := by
  unfold budgeted
  split <;> rfl

def issuePolicy (s : Scenario) (p : Policies) : Policy :=
  match s.pattern with
  | .read => p.read
  | .write | .delete | .mutateThenPoll | .deleteThenPoll => p.write

theorem issuePolicy_of_ne (hp : s.pattern ≠ .read) (p : Policies) : s.issuePolicy p = p.write := by
  cases hpattern : s.pattern with
  | read => exact (hp hpattern).elim
  | write | delete | mutateThenPoll | deleteThenPoll => rw [issuePolicy, hpattern]

/-- The retrier for the calls of a stage. -/
def retrier (s : Scenario) (r : Reconciler σ) : Stage → Retrier σ
  | .issue => (s.budgeted r).issuer (s.issuePolicy (s.budgeted r).policies) s.operation
  | .poll => (s.budgeted r).poller s.pollOperation

@[simp] theorem retrier_stage (s : Scenario) (r : Reconciler σ) (stage : Stage) :
    (s.retrier r stage).stage = stage := by
  cases stage <;> rfl

/-- The loop of a stage, on the answers that the script gives to it. -/
def loop (s : Scenario) (r : Reconciler σ) (stage : Stage) (w : World σ) :
    Option (Run σ (Option String)) :=
  (s.retrier r stage).run (s.replies r.errors stage) w

theorem loop_course {stage : Stage} (h : s.loop r stage w = some run) :
    (s.retrier r stage).Course (s.replies r.errors stage) w.clock.now 0 w run :=
  (Retrier.run_course h).2

theorem loop_calls_other {stage other : Stage} (h : s.loop r stage w = some run)
    (ho : other ≠ stage) : run.trace.calls other = 0 :=
  (loop_course h).calls_other (by rwa [retrier_stage])

section calls

variable {first second : Run σ (Option String)}

theorem issueCalls_polled (hpoll : s.loop r .poll w = some second) :
    (polled s.action first second).trace.calls .issue = first.trace.calls .issue := by
  rw [Reconciler.calls_polled, loop_calls_other hpoll (by simp), Nat.add_zero]

theorem pollCalls_polled (h : s.loop r .issue w = some first) :
    (polled s.action first second).trace.calls .poll = second.trace.calls .poll := by
  rw [Reconciler.calls_polled, loop_calls_other h (by simp), Nat.zero_add]

end calls

/-- How a scenario comes by its run: from the loop of its issue, and from that of its polls if the
issue of a pattern that polls succeeds. -/
inductive Rehearsed (s : Scenario) (r : Reconciler σ) (w : World σ) :
    Run σ (Option String) → Prop where
  | direct {run : Run σ (Option String)} (hp : s.pattern.polls = false)
      (h : s.loop r .issue w = some run) : Rehearsed s r w run
  | refused {first f} (hp : s.pattern.polls = true) (h : s.loop r .issue w = some first)
      (hf : first.result = .error f) : Rehearsed s r w (unpolled s.action first f)
  | polled {first v second} (hp : s.pattern.polls = true) (h : s.loop r .issue w = some first)
      (hv : first.result = .ok v) (hpoll : s.loop r .poll first.world = some second) :
      Rehearsed s r w (polled s.action first second)

theorem read_eq (hp : s.pattern = .read) :
    (s.budgeted r).read s.operation s.issueScript w = s.loop r .issue w := by
  rw [loop, retrier, issuePolicy, hp, Reconciler.read]
  congr 1
  funext n
  rw [issueScript, replies, ← budgeted_errors s r, ← readAnswer_eq _ hp]
  rfl

theorem write_eq (hp : s.pattern = .write ∨ s.pattern = .mutateThenPoll) :
    (s.budgeted r).write s.operation s.issueScript w = s.loop r .issue w := by
  have hne : s.pattern ≠ .read := by rcases hp with hp | hp <;> simp [hp]
  rw [loop, retrier, issuePolicy_of_ne hne, Reconciler.write]
  congr 1
  funext n
  rw [issueScript, replies, ← budgeted_errors s r, ← writeAnswer_eq _ hp]
  rfl

theorem delete_eq (hp : s.pattern = .delete ∨ s.pattern = .deleteThenPoll) :
    ((s.budgeted r).delete s.operation (withoutValues s.issueScript) w).map
      (Run.map fun () => none) = s.loop r .issue w := by
  have hne : s.pattern ≠ .read := by rcases hp with hp | hp <;> simp [hp]
  rw [loop, retrier, issuePolicy_of_ne hne, Reconciler.delete, ← Retrier.run_map]
  congr 1
  funext n
  rw [replies, ← budgeted_errors s r, ← deleteAnswer_eq _ hp]
  rfl

theorem awaitReady_eq (hp : s.pattern = .mutateThenPoll) :
    (s.budgeted r).awaitReady s.pollOperation s.pollScript w = s.loop r .poll w := by
  rw [loop, retrier, Reconciler.awaitReady]
  congr 1
  funext n
  rw [pollScript, replies, ← budgeted_errors s r, ← pollAnswer_eq _ hp]
  rfl

theorem awaitGone_eq (hp : s.pattern = .deleteThenPoll) :
    ((s.budgeted r).awaitGone s.pollOperation
        (fun n => (s.pollScript n).map (Except.map (Observation.map fun _ => ()))) w).map
      (Run.map fun () => none) = s.loop r .poll w := by
  rw [loop, retrier, Reconciler.awaitGone, ← Retrier.run_map]
  congr 1
  funext n
  rw [replies, ← budgeted_errors s r, ← goneAnswer_eq _ hp]
  rfl

/-- Every run of a scenario comes from its loops. -/
theorem rehearsed (h : s.run r w = some run) : Rehearsed s r w run := by
  cases hp : s.pattern with
  | read =>
      rw [Scenario.run, hp, read_eq hp] at h
      exact .direct (by rw [hp]; rfl) h
  | write =>
      rw [Scenario.run, hp, write_eq (.inl hp)] at h
      exact .direct (by rw [hp]; rfl) h
  | delete =>
      rw [Scenario.run, hp, delete_eq (.inl hp)] at h
      exact .direct (by rw [hp]; rfl) h
  | mutateThenPoll =>
      rw [Scenario.run, hp] at h
      obtain ⟨first, hissue, ⟨f, hf, rfl⟩ | ⟨v, second, hv, hpoll, rfl⟩⟩ :=
        Reconciler.twoPhase_eq_some.mp h
      · rw [write_eq (.inr hp)] at hissue
        exact .refused (by rw [hp]; rfl) hissue hf
      · rw [write_eq (.inr hp)] at hissue
        rw [awaitReady_eq hp] at hpoll
        exact .polled (by rw [hp]; rfl) hissue hv hpoll
  | deleteThenPoll =>
      rw [Scenario.run, hp] at h
      obtain ⟨run, hrun, rfl⟩ := Option.map_eq_some_iff.mp h
      obtain ⟨first, hissue, hrest⟩ := Reconciler.twoPhase_eq_some.mp hrun
      have hloop : s.loop r .issue w = some (first.map fun () => none) := by
        rw [← delete_eq (.inr hp), hissue]
        rfl
      rcases hrest with ⟨f, hf, rfl⟩ | ⟨v, second, hv, hpoll, rfl⟩
      · have hfailed : (first.map fun () => (none : Option String)).result = .error f := by
          rw [Run.result_map, hf]
          rfl
        rw [Reconciler.unpolled_map s.operation.action first f fun () => (none : Option String)]
        exact .refused (by rw [hp]; rfl) hloop hfailed
      · have haccepted : (first.map fun () => (none : Option String)).result = .ok none := by
          rw [Run.result_map, hv]
          rfl
        have hpolls : s.loop r .poll first.world = some (second.map fun () => none) := by
          rw [← awaitGone_eq hp, hpoll]
          rfl
        rw [Reconciler.polled_map s.operation.action first second fun () => (none : Option String)]
        exact .polled (by rw [hp]; rfl) hloop haccepted hpolls

/-- The report of a run that starts in `w`. -/
def report (s : Scenario) (w : World σ) (run : Run σ (Option String)) : Report where
  pattern := s.pattern
  issueCalls := run.trace.calls .issue
  pollCalls := run.trace.calls .poll
  elapsed := run.world.clock.now - w.clock.now
  outcome := run.result

theorem exists_of_rehearse {report : Report} {world : World σ} {trace : Trace}
    (h : s.rehearse r w = some (report, world, trace)) : ∃ run, Rehearsed s r w run ∧
      report = s.report w run ∧ world = run.world ∧
      trace = .rehearsed s.pattern s.action :: run.trace := by
  obtain ⟨run, hrun, hreport⟩ := Option.map_eq_some_iff.mp h
  cases hreport
  exact ⟨run, rehearsed hrun, rfl, rfl, rfl⟩

end Scenario

end Settle
