import Settle.Proofs.Retrier.Pace
import Settle.Proofs.Scenario.Rehearsal

/-! # Reports of scenarios that fail

A failure counts its attempts and its time in the loop that it comes from, and the remote side
numbers its answers. The report counts calls and time for the whole scenario. All of these agree. -/

namespace Settle

namespace Report

/-- The calls of a stage. -/
def calls (report : Report) : Stage → Nat
  | .issue => report.issueCalls
  | .poll => report.pollCalls

/-- The stage that a failure comes from: polls follow only an issue that succeeds. -/
def failedStage (report : Report) : Stage := if report.pollCalls = 0 then .issue else .poll

end Report

namespace Trace

/-- The issue is over and the polls begin at `u`: the last call of the issue starts there, and so
does the wait for the turn of the first poll. -/
def PollsFrom (t : Trace) (u : Nanos) : Prop :=
  (∃ before after : Trace, t = before ++ .called .issue u :: after ∧ after.calls .issue = 0) ∧
    t.begun? .poll = some u

theorem PollsFrom.cons {e : Event} {t : Trace} {u : Nanos} (he : e.stage? = none)
    (h : t.PollsFrom u) : PollsFrom (e :: t) u := by
  obtain ⟨⟨before, after, rfl, hcalls⟩, hbegun⟩ := h
  refine ⟨⟨e :: before, after, rfl, hcalls⟩, ?_⟩
  rwa [← List.singleton_append, begun?_append (by simp [he])]

end Trace

namespace Scenario

open Reconciler (polled)

variable {σ : Type} {s : Scenario} {t : ErrorTable} {r : Reconciler σ} {w world : World σ}
  {run first second : Run σ (Option String)} {stage : Stage} {report : Report} {trace : Trace}
  {f : Failure} {e : RemoteError} {n : Nat}

/-! ## Errors that surface -/

theorem absence_error {setback : Setback} (h : s.absence e stage = .error setback) :
    setback.reason.remoteError? = some e := by
  cases hp : s.pattern <;> cases stage <;> simp only [absence, hp] at h <;> cases h <;> rfl

theorem errorReading_error {setback : Setback} (h : s.errorReading t stage e = .error setback) :
    setback.reason.remoteError? = some e := by
  unfold errorReading at h
  cases hj : t.judge (s.stageOperation stage) e with
  | retryable | fatal =>
      rw [hj] at h
      cases h
      rfl
  | absent =>
      rw [hj] at h
      exact absence_error h

/-- An error that surfaces is the one that the script has at the call, with the number of that
call. -/
theorem reading_error {setback : Setback} (h : s.reading t stage n = .error setback)
    (he : setback.reason.remoteError? = some e) :
    s.step stage (n + 1) = .error e.code ∧ e = ScriptStep.failure e.code n := by
  unfold reading at h
  rw [ofCall_eq_step] at h
  cases hstep : s.step stage (n + 1) with
  | ok =>
      rw [hstep] at h
      cases h
  | error code =>
      rw [hstep] at h
      have hown := errorReading_error h
      obtain rfl := Option.some.inj (he.symm.trans hown)
      exact ⟨rfl, rfl⟩
  | status status =>
      rw [hstep] at h
      cases stage with
      | issue => cases h
      | poll =>
          simp only [StatusTable.observe] at h
          cases hclass : s.table.classOf status <;> rw [hclass] at h <;> cases h <;> cases he

/-! ## The failure of a loop -/

/-- A failure counts the calls of its stage, and the error behind it answers the last of them. -/
structure Accounts (s : Scenario) (stage : Stage) (calls : Nat) (f : Failure) : Prop where
  attempts : f.attempts = calls
  step : ∀ e, f.reason.remoteError? = some e → s.step stage calls = .error e.code
  requestId : ∀ e, f.reason.remoteError? = some e →
    e.requestId = some ("sim-" ++ toString calls)

theorem loop_accounts (h : s.loop r stage w = some run) (hf : run.result = .error f) :
    s.Accounts stage (run.trace.calls stage) f := by
  have hattempts := ((loop_course h).effort hf).1
  rw [retrier_stage, Nat.zero_add] at hattempts
  have hlast (e : RemoteError) (he : f.reason.remoteError? = some e) :
      ∃ n, run.trace.calls stage = n + 1 ∧ s.step stage (n + 1) = .error e.code ∧
        e = ScriptStep.failure e.code n := by
    have hverdict : run.verdict = .error f.reason := Run.verdict_error hf
    have hc : run.verdict ≠ .error .cancelled := by
      rw [hverdict]
      intro hcancelled
      rw [Except.error.inj hcancelled] at he
      cases he
    obtain ⟨n, hn, hanswer⟩ := Retrier.run_last h hc
    rw [retrier_stage] at hn
    rw [hverdict] at hanswer
    change .error f.reason = (s.reading r.errors stage n).mapError Setback.reason at hanswer
    cases hreading : s.reading r.errors stage n with
    | ok v =>
        rw [hreading] at hanswer
        cases hanswer
    | error setback =>
        rw [hreading] at hanswer
        rw [Except.error.inj hanswer] at he
        exact ⟨n, hn, reading_error hreading he⟩
  refine ⟨hattempts, fun e he => ?_, fun e he => ?_⟩
  · obtain ⟨n, hn, hstep, -⟩ := hlast e he
    rwa [hn]
  · obtain ⟨n, hn, -, hfailure⟩ := hlast e he
    rw [hn, hfailure]
    rfl

theorem loop_elapsed (h : s.loop r stage w = some run) (hf : run.result = .error f) :
    w.clock.now + f.elapsed = run.world.clock.now := by
  rw [((loop_course h).effort hf).2]
  exact Nat.add_sub_of_le (loop_course h).now_le

theorem loop_unsignalled (h : s.loop r stage w = some run) (hw : w.clock.Unsignalled) :
    run.world.clock.Unsignalled :=
  (loop_course h).unsignalled hw fun _ => rfl

theorem stage_ne_of_loop {other : Stage} (h : s.loop r stage w = some run) (ho : other ≠ stage) :
    ∀ e ∈ run.trace, e.stage? ≠ some other := by
  intro e he hs
  have hstage := (loop_course h).stage_eq he hs
  rw [retrier_stage] at hstage
  exact ho hstage

/-- Polls begin when the last call of the issue is over, which is when it started. -/
theorem pollsFrom_polled {v : Option String} {action : String}
    (h : s.loop r .issue w = some first) (hv : first.result = .ok v)
    (hpoll : s.loop r .poll first.world = some second)
    (hraised : first.world.clock.raised = false) :
    (polled action first second).trace.PollsFrom first.world.clock.now := by
  obtain ⟨before, u, x, htrace, hx, hnow⟩ := (loop_course h).succeeded_at hv
  rw [retrier_stage] at htrace
  have hu : first.world.clock.now = u := hnow
  have hx : Trace.Quiet [x] := by simpa using hx
  refine ⟨⟨.opened action :: before, x :: .advanced action .issuing .polling :: (second.trace ++
    [.advanced action .polling (.after second.result)]), ?_, ?_⟩, ?_⟩
  · simp [Reconciler.polled_trace, htrace, hu]
  · rw [← List.singleton_append, Trace.calls_append, hx.calls_eq_zero, Trace.calls_cons,
      Trace.calls_append, loop_calls_other hpoll (by simp)]
    simp [Trace.calls_cons, Event.isCall]
  · have hfront : ∀ e ∈ [.opened action] ++ first.trace ++ [.advanced action .issuing .polling],
        e.stage? ≠ some .poll :=
      Trace.stage_ne_between (stage_ne_of_loop h (by simp)) rfl rfl
    have hbegun := (loop_course hpoll).begun hraised
    rw [retrier_stage] at hbegun
    rw [Reconciler.polled_trace, List.append_assoc, Trace.begun?_append hfront]
    exact Trace.begun?_of_front hbegun

/-! ## Reports -/

/-- How the report of a scenario that starts in `w` agrees with the failure in it. -/
structure ReportSpec (s : Scenario) (w : World σ) (report : Report) (trace : Trace) : Prop where
  direct : s.pattern.polls = false → report.pollCalls = 0
  accounts : ∀ f, report.outcome = .error f →
    s.Accounts report.failedStage (report.calls report.failedStage) f
  issue_elapsed : ∀ f, report.outcome = .error f → report.pollCalls = 0 →
    report.elapsed = f.elapsed
  poll_elapsed : ∀ f, report.outcome = .error f → report.pollCalls ≠ 0 →
    ∃ spent, trace.PollsFrom (w.clock.now + spent) ∧ report.elapsed = spent + f.elapsed

theorem reportSpec_of_issue (h : s.loop r .issue w = some first)
    (hissue : run.trace.calls .issue = first.trace.calls .issue)
    (hpolls : run.trace.calls .poll = 0) (hworld : run.world = first.world)
    (hresult : run.result = first.result) : ReportSpec s w (s.report w run) trace := by
  have hstage : (s.report w run).failedStage = .issue := if_pos hpolls
  refine
    { direct := fun _ => hpolls
      accounts := fun f hf => ?_
      issue_elapsed := fun f hf _ => ?_
      poll_elapsed := fun f hf hne => (hne hpolls).elim }
  · rw [hstage]
    change s.Accounts .issue (run.trace.calls .issue) f
    rw [hissue]
    exact loop_accounts h (hresult.symm.trans hf)
  · have helapsed := loop_elapsed h (hresult.symm.trans hf)
    change run.world.clock.now - w.clock.now = f.elapsed
    rw [hworld, ← helapsed, Nat.add_sub_cancel_left]

/-- A failure in a report agrees with its counts and its time, if nobody withdraws the scenario. -/
theorem rehearse_reportSpec (h : s.rehearse r w = some (report, world, trace))
    (hw : w.clock.Unsignalled) : ReportSpec s w report trace := by
  obtain ⟨run, hrun, rfl, rfl, rfl⟩ := exists_of_rehearse h
  cases hrun with
  | direct hp hloop =>
      exact reportSpec_of_issue hloop rfl (loop_calls_other hloop (by simp)) rfl rfl
  | @refused first f hp hloop hf =>
      have hpolls : first.trace.calls .poll = 0 := loop_calls_other hloop (by simp)
      refine reportSpec_of_issue hloop (Reconciler.calls_unpolled _) ?_ rfl hf.symm
      rwa [Reconciler.calls_unpolled]
  | @polled first v second hp hloop hv hpoll =>
      have hmid := loop_unsignalled hloop hw
      have hcalled : 0 < second.trace.calls .poll := by
        have hcalls := Retrier.run_calls_pos hpoll (loop_unsignalled hpoll hmid).1
        rwa [retrier_stage] at hcalls
      have hpollCalls : (polled s.action first second).trace.calls .poll =
          second.trace.calls .poll := pollCalls_polled hloop
      have hne : (polled s.action first second).trace.calls .poll ≠ 0 := by
        rw [hpollCalls]
        exact Nat.ne_of_gt hcalled
      have hstage : (s.report w (polled s.action first second)).failedStage = .poll := if_neg hne
      refine
        { direct := fun hdirect => by simp [hp] at hdirect
          accounts := fun f hf => ?_
          issue_elapsed := fun f hf hpolls => (hne hpolls).elim
          poll_elapsed := fun f hf _ => ⟨first.world.clock.now - w.clock.now, ?_, ?_⟩ }
      · rw [hstage]
        change s.Accounts .poll ((polled s.action first second).trace.calls .poll) f
        rw [hpollCalls]
        exact loop_accounts hpoll hf
      · rw [Nat.add_sub_of_le (loop_course hloop).now_le]
        exact (pollsFrom_polled hloop hv hpoll hmid.1).cons rfl
      · have hissue := (loop_course hloop).now_le
        have helapsed := loop_elapsed hpoll hf
        change second.world.clock.now - w.clock.now =
          first.world.clock.now - w.clock.now + f.elapsed
        lia

/-- A function is requested twice, and refused while it is created. -/
def createFunction : Scenario where
  action := "CreateFunction"
  pollAction := some "GetFunction"
  issue := [.error "ResourceBusy", .ok]
  poll := [.status "CREATING", .error "FailedOperation"]
  pending := ["CREATING"]
  ready := ["ACTIVE"]

theorem rehearse_reportSpec_createFunction : ∃ report world trace,
    createFunction.rehearse .usual ⟨{}, ()⟩ = some (report, world, trace) ∧
      Clock.Unsignalled {} ∧
      report.outcome = .error ⟨.remote (ScriptStep.failure "FailedOperation" 1), 2, .millis 100⟩ ∧
      report.pollCalls = 2 ∧ report.elapsed = .millis 200 ∧
      ReportSpec createFunction ⟨{}, ()⟩ report trace := by
  have h : (createFunction.rehearse .usual ⟨{}, ()⟩).map
      (fun (report, _, _) => (report.outcome, report.pollCalls, report.elapsed)) =
        some (.error ⟨.remote (ScriptStep.failure "FailedOperation" 1), 2, .millis 100⟩, 2,
          .millis 200) := by
    decide +kernel
  have hw : Clock.Unsignalled {} := ⟨rfl, rfl⟩
  obtain ⟨⟨report, world, trace⟩, hrun, hreport⟩ := Option.map_eq_some_iff.mp h
  simp only [Prod.mk.injEq] at hreport
  obtain ⟨houtcome, hpolls, helapsed⟩ := hreport
  exact ⟨report, world, trace, hrun, hw, houtcome, hpolls, helapsed, rehearse_reportSpec hrun hw⟩

end Scenario

end Settle
