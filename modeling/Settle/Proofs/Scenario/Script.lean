import Settle.Proofs.Scenario.Rehearsal

/-! # A scenario's outcome and its script

The loop of a stage is over with the first step that settles it. A scenario that neither runs out
of time nor is withdrawn ends with what that step means to its pattern. -/

namespace Settle

namespace ErrorTable

variable {t : ErrorTable} {op : Operation} {e : RemoteError}

/-- A code that lets the calls of an operation be made again. -/
def Retries (t : ErrorTable) (op : Operation) (code : String) : Prop :=
  t.lookup code = some .transient ∨ t.lookup code = some .transport ∧ op.idempotent = true

theorem judge_eq_retryable_iff : t.judge op e = .retryable ↔ t.Retries op e.code := by
  unfold judge Retries
  cases t.lookup e.code with
  | none => simp
  | some c => cases c <;> cases op.idempotent <;> simp

theorem of_judge_fatal (h : t.judge op e = .fatal) :
    t.lookup e.code ≠ some .absent ∧ ¬ t.Retries op e.code := by
  refine ⟨fun habsent => ?_, fun hretries => ?_⟩
  · rw [judge_eq_absent_iff.mpr habsent] at h
    cases h
  · rw [judge_eq_retryable_iff.mpr hretries] at h
    cases h

end ErrorTable

/-- The outcome without the effort of a failure. -/
def Report.verdict (report : Report) : Except Reason (Option String) :=
  report.outcome.mapError Failure.reason

namespace Scenario

variable {σ : Type} {s : Scenario} {t : ErrorTable} {r : Reconciler σ} {w world : World σ}
  {run : Run σ (Option String)} {stage : Stage} {report : Report} {trace : Trace} {n : Nat}

/-! ## Steps that settle a stage -/

/-- A step that ends the loop of its stage. An issue goes on while its code may be retried; polls
go on as well while the status is pending, or while there is nothing yet to be seen. -/
def Settles (s : Scenario) (t : ErrorTable) : Stage → ScriptStep → Prop
  | _, .ok => True
  | .issue, .status _ => True
  | .poll, .status status => s.table.classOf status ≠ .pending
  | .issue, .error code => ¬ t.Retries s.operation code
  | .poll, .error code =>
    t.lookup code ≠ some .absent ∧ ¬ t.Retries s.pollOperation code ∨
      t.lookup code = some .absent ∧ s.pattern = .deleteThenPoll

/-- What it means to a pattern that a call which settles a stage finds the resource absent. -/
def absentVerdict (s : Scenario) (e : RemoteError) : Except Reason (Option String) :=
  match s.pattern with
  | .read => .error (.notFound e)
  | .write | .mutateThenPoll => .error (.remote e)
  | .delete | .deleteThenPoll => .ok none

/-- How a stage is settled by the step of its last call, number `n` from one. -/
def verdict (s : Scenario) (t : ErrorTable) (stage : Stage) (n : Nat) :
    Except Reason (Option String) :=
  match s.step stage n, stage with
  | .ok, _ => .ok none
  | .status status, .issue => .ok (s.kept status)
  | .status status, .poll =>
    if s.table.classOf status = .ready then .ok (s.kept status)
    else .error (.terminal status none)
  | .error code, _ =>
    if t.lookup code = some .absent then s.absentVerdict (ScriptStep.failure code (n - 1))
    else .error (.remote (ScriptStep.failure code (n - 1)))

section errors

variable (hp : stage = .poll → s.pattern.polls = true) {e : RemoteError}

theorem not_settles_of_retryable (h : t.judge (s.stageOperation stage) e = .retryable) :
    ¬ s.Settles t stage (.error e.code) := by
  have hretries := ErrorTable.judge_eq_retryable_iff.mp h
  cases stage with
  | issue => exact fun hsettles => hsettles hretries
  | poll =>
      rintro (⟨-, hnot⟩ | ⟨habsent, -⟩)
      · exact hnot hretries
      · rw [ErrorTable.judge_eq_absent_iff.mpr habsent] at h
        cases h

theorem settles_of_fatal (h : t.judge (s.stageOperation stage) e = .fatal) :
    s.Settles t stage (.error e.code) := by
  obtain ⟨habsent, hretries⟩ := ErrorTable.of_judge_fatal h
  cases stage with
  | issue => exact hretries
  | poll => exact .inl ⟨habsent, hretries⟩

theorem absence_of_settles (h : ¬ (s.pattern = .mutateThenPoll ∧ stage = .poll)) :
    (∀ cause, s.absence e stage ≠ .error (.retryable cause)) ∧
      (s.absence e stage).mapError Setback.reason = s.absentVerdict e := by
  cases hpattern : s.pattern with
  | read | write | delete | deleteThenPoll =>
      cases stage <;>
        simp [absence, absentVerdict, hpattern, Except.mapError, Setback.reason, Cause.reason]
  | mutateThenPoll =>
      cases stage with
      | issue =>
          simp [absence, absentVerdict, hpattern, Except.mapError, Setback.reason, Cause.reason]
      | poll => exact (h ⟨hpattern, rfl⟩).elim

include hp

/-- What is absent settles every stage but the polls after a change. -/
theorem settles_absent_iff (h : t.lookup e.code = some .absent) :
    s.Settles t stage (.error e.code) ↔ ¬ (s.pattern = .mutateThenPoll ∧ stage = .poll) := by
  have hretries (op : Operation) : ¬ t.Retries op e.code := by
    simp [ErrorTable.Retries, h]
  cases stage with
  | issue => simp [Settles, hretries]
  | poll =>
      have hpolls := hp rfl
      cases hpattern : s.pattern with
      | read | write | delete =>
          rw [hpattern] at hpolls
          cases hpolls
      | mutateThenPoll | deleteThenPoll => simp [Settles, h, hpattern]

theorem errorReading_of_settles (h : s.Settles t stage (.error e.code)) :
    (∀ cause, s.errorReading t stage e ≠ .error (.retryable cause)) ∧
      (s.errorReading t stage e).mapError Setback.reason =
        if t.lookup e.code = some .absent then s.absentVerdict e else .error (.remote e) := by
  cases hj : t.judge (s.stageOperation stage) e with
  | retryable => exact (not_settles_of_retryable hj h).elim
  | fatal =>
      rw [errorReading, hj, if_neg (ErrorTable.of_judge_fatal hj).1]
      exact ⟨by simp, rfl⟩
  | absent =>
      have habsent := ErrorTable.judge_eq_absent_iff.mp hj
      rw [errorReading, hj, if_pos habsent]
      exact absence_of_settles ((settles_absent_iff hp habsent).mp h)

theorem errorReading_of_not_settles (h : ¬ s.Settles t stage (.error e.code)) :
    ∃ cause, s.errorReading t stage e = .error (.retryable cause) := by
  cases hj : t.judge (s.stageOperation stage) e with
  | retryable => exact ⟨.remote e, by rw [errorReading, hj]⟩
  | fatal => exact (h (settles_of_fatal hj)).elim
  | absent =>
      have habsent := ErrorTable.judge_eq_absent_iff.mp hj
      rw [settles_absent_iff hp habsent, not_not] at h
      obtain ⟨hpattern, rfl⟩ := h
      exact ⟨.missing e, by simp only [errorReading, hj, absence, hpattern]⟩

end errors

section steps

variable (hp : stage = .poll → s.pattern.polls = true)

include hp

theorem reading_of_settles (h : s.Settles t stage (s.step stage (n + 1))) :
    (∀ cause, s.reading t stage n ≠ .error (.retryable cause)) ∧
      (s.reading t stage n).mapError Setback.reason = s.verdict t stage (n + 1) := by
  unfold reading verdict
  rw [ofCall_eq_step]
  cases hstep : s.step stage (n + 1) with
  | ok => exact ⟨nofun, rfl⟩
  | error code =>
      rw [hstep] at h
      exact errorReading_of_settles (e := ScriptStep.failure code n) hp h
  | status status =>
      rw [hstep] at h
      cases stage with
      | issue => exact ⟨nofun, rfl⟩
      | poll =>
          simp only [StatusTable.observe]
          cases hclass : s.table.classOf status with
          | pending => exact (h hclass).elim
          | ready =>
              refine ⟨fun cause hcause => ?_, rfl⟩
              cases hcause
          | failed =>
              refine ⟨fun cause hcause => ?_, rfl⟩
              cases hcause

theorem asksAgain_iff :
    Retrier.AsksAgain (s.replies t stage) n ↔ ¬ s.Settles t stage (s.step stage (n + 1)) := by
  constructor
  · rintro ⟨cause, hcause⟩ hsettles
    exact (reading_of_settles hp hsettles).1 cause hcause
  · intro h
    change ∃ cause, s.reading t stage n = .error (.retryable cause)
    unfold reading
    rw [ofCall_eq_step]
    cases hstep : s.step stage (n + 1) with
    | ok =>
        rw [hstep] at h
        exact (h (by simp [Settles])).elim
    | error code =>
        rw [hstep] at h
        exact errorReading_of_not_settles (e := ScriptStep.failure code n) hp h
    | status status =>
        rw [hstep] at h
        cases stage with
        | issue => exact (h trivial).elim
        | poll =>
            have hclass : s.table.classOf status = .pending := not_not.mp h
            exact ⟨.status status none, by simp only [StatusTable.observe, hclass]; rfl⟩

/-- The script settles a stage with call number `calls`, the first whose step settles it, and leaves
it with this verdict. -/
def SettledAt (s : Scenario) (t : ErrorTable) (stage : Stage) (calls : Nat)
    (verdict : Except Reason (Option String)) : Prop :=
  IsLeast {n | 0 < n ∧ s.Settles t stage (s.step stage n)} calls ∧
    s.verdict t stage calls = verdict

/-- A loop that ends with an answer ends with the first step that settles its stage. -/
theorem loop_settledAt (h : s.loop r stage w = some run) (hc : run.verdict ≠ .error .cancelled)
    (ht : ∀ last, run.verdict ≠ .error (.timedOut last)) :
    s.SettledAt r.errors stage (run.trace.calls stage) run.verdict := by
  have hends : {n | 0 < n ∧ ¬ Retrier.AsksAgain (s.replies r.errors stage) (n - 1)} =
      {n | 0 < n ∧ s.Settles r.errors stage (s.step stage n)} := by
    ext n
    refine and_congr_right fun hn => ?_
    rw [asksAgain_iff hp, not_not, Nat.sub_add_cancel hn]
  obtain ⟨hleast, hverdict⟩ := Retrier.run_decided h hc ht
  rw [retrier_stage] at hleast hverdict
  rw [hends] at hleast
  obtain ⟨hpos, hsettles⟩ := hleast.1
  rw [← Nat.sub_add_cancel hpos] at hsettles
  have hreading := (reading_of_settles hp hsettles).2
  rw [Nat.sub_add_cancel hpos] at hreading
  exact ⟨hleast, (hverdict.trans hreading).symm⟩

end steps

/-! ## Outcomes -/

/-- What the script of a scenario decides: the numbers of calls to issue and to poll, and the
verdict. The issue decides all of it, unless it succeeds and the pattern goes on to poll. -/
inductive Decides (s : Scenario) (t : ErrorTable) :
    Nat → Nat → Except Reason (Option String) → Prop where
  | direct {calls verdict} (hp : s.pattern.polls = false)
      (hissue : s.SettledAt t .issue calls verdict) : Decides s t calls 0 verdict
  | refused {calls reason} (hp : s.pattern.polls = true)
      (hissue : s.SettledAt t .issue calls (.error reason)) : Decides s t calls 0 (.error reason)
  | polled {calls v polls verdict} (hp : s.pattern.polls = true)
      (hissue : s.SettledAt t .issue calls (.ok v))
      (hpoll : s.SettledAt t .poll polls verdict) : Decides s t calls polls verdict

theorem SettledAt.unique {calls calls' : Nat} {verdict verdict' : Except Reason (Option String)}
    (h : s.SettledAt t stage calls verdict) (h' : s.SettledAt t stage calls' verdict') :
    calls = calls' ∧ verdict = verdict' := by
  obtain rfl := h.1.unique h'.1
  exact ⟨rfl, h.2.symm.trans h'.2⟩

/-- No two reports agree with one script. -/
theorem Decides.unique {calls calls' polls polls' : Nat}
    {verdict verdict' : Except Reason (Option String)} (h : s.Decides t calls polls verdict)
    (h' : s.Decides t calls' polls' verdict') :
    calls = calls' ∧ polls = polls' ∧ verdict = verdict' := by
  cases h with
  | direct hp hissue =>
      cases h' with
      | direct _ hissue' =>
          obtain ⟨rfl, rfl⟩ := hissue.unique hissue'
          exact ⟨rfl, rfl, rfl⟩
      | refused hp' | polled hp' =>
          rw [hp] at hp'
          cases hp'
  | refused hp hissue =>
      cases h' with
      | direct hp' =>
          rw [hp] at hp'
          cases hp'
      | refused _ hissue' =>
          obtain ⟨rfl, hreason⟩ := hissue.unique hissue'
          exact ⟨rfl, rfl, hreason⟩
      | polled _ hissue' => cases (hissue.unique hissue').2
  | polled hp hissue hpoll =>
      cases h' with
      | direct hp' =>
          rw [hp] at hp'
          cases hp'
      | refused _ hissue' => cases (hissue.unique hissue').2
      | polled _ hissue' hpoll' =>
          obtain ⟨rfl, -⟩ := hissue.unique hissue'
          obtain ⟨rfl, rfl⟩ := hpoll.unique hpoll'
          exact ⟨rfl, rfl, rfl⟩

/-- A scenario that ends neither out of time nor withdrawn ends as its script decides. -/
theorem rehearse_decides (h : s.rehearse r w = some (report, world, trace))
    (hc : report.verdict ≠ .error .cancelled)
    (ht : ∀ last, report.verdict ≠ .error (.timedOut last)) :
    s.Decides r.errors report.issueCalls report.pollCalls report.verdict := by
  obtain ⟨run, hrun, rfl, rfl, rfl⟩ := exists_of_rehearse h
  have hstage : Stage.issue = .poll → s.pattern.polls = true := nofun
  change run.verdict ≠ _ at hc
  change ∀ last, run.verdict ≠ _ at ht
  change s.Decides r.errors (run.trace.calls .issue) (run.trace.calls .poll) run.verdict
  cases hrun with
  | direct hp hloop =>
      have hpolls : run.trace.calls .poll = 0 := loop_calls_other hloop (by simp)
      rw [hpolls]
      exact .direct hp (loop_settledAt hstage hloop hc ht)
  | @refused first f hp hloop hf =>
      have hfirst : first.verdict = .error f.reason := Run.verdict_error hf
      have hissue := loop_settledAt hstage hloop (by rwa [hfirst]) (by rwa [hfirst])
      have hpolls : first.trace.calls .poll = 0 := loop_calls_other hloop (by simp)
      rw [hfirst] at hissue
      rw [Reconciler.calls_unpolled, Reconciler.calls_unpolled, hpolls]
      exact .refused hp hissue
  | @polled first v second hp hloop hv hpoll =>
      have hfirst : first.verdict = .ok v := Run.verdict_ok hv
      have hissue := loop_settledAt hstage hloop (by simp [hfirst]) (by simp [hfirst])
      rw [hfirst] at hissue
      rw [issueCalls_polled hpoll, pollCalls_polled hloop]
      exact .polled hp hissue (loop_settledAt (fun _ => hp) hpoll hc ht)

/-- Two disks are created once the remote side is less busy, and attached after a while. -/
def createDisks : Scenario where
  action := "CreateDisks"
  pollAction := some "DescribeDisks"
  issue := [.error "RequestLimitExceeded", .ok]
  poll := [.status "PENDING", .error "ResourceNotFound.DiskNotFound", .status "ATTACHED"]
  pending := ["PENDING"]
  ready := ["ATTACHED", "UNATTACHED"]

theorem rehearse_decides_createDisks : ∃ report world trace,
    createDisks.rehearse .usual ⟨{}, ()⟩ = some (report, world, trace) ∧
      report.verdict ≠ .error .cancelled ∧ (∀ last, report.verdict ≠ .error (.timedOut last)) ∧
      createDisks.Decides .standard 2 3 (.ok (some "ATTACHED")) := by
  have h : (createDisks.rehearse .usual ⟨{}, ()⟩).map
      (fun (report, _, _) => (report.issueCalls, report.pollCalls, report.verdict)) =
        some (2, 3, .ok (some "ATTACHED")) := by
    decide +kernel
  obtain ⟨⟨report, world, trace⟩, hrun, hreport⟩ := Option.map_eq_some_iff.mp h
  simp only [Prod.mk.injEq] at hreport
  obtain ⟨hissue, hpoll, hverdict⟩ := hreport
  have hc : report.verdict ≠ .error .cancelled := by simp [hverdict]
  have ht : ∀ last, report.verdict ≠ .error (.timedOut last) := by simp [hverdict]
  have hdecides := rehearse_decides hrun hc ht
  rw [hissue, hpoll, hverdict] at hdecides
  exact ⟨report, world, trace, hrun, hc, ht, hdecides⟩

end Scenario

end Settle
