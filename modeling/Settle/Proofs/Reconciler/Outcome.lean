import Settle.Proofs.Reconciler.Loop

/-! # Which outcomes a pattern can have

The last call of a request decides its result, so an error that surfaces is the answer to that
call. What is absent is missing for a read and gone for a deletion; other changes are refused, and
polls for them wait for it. -/

namespace Settle.Reconciler

variable {σ α : Type} {r : Reconciler σ} {q : Request α} {w : World σ} {run : Run σ α}
  {stage : Stage} {n : Nat}

/-! ## Results and last calls -/

namespace Concluded

variable {reason : Reason} {cause : Cause}

theorem of_error (h : Concluded r q run) (hv : run.verdict = .error reason)
    (hc : reason ≠ .cancelled) : ∃ stage n s, run.trace.LastCall stage n ∧
      r.Reads q (run.trace.calls .issue) stage n (.error s) ∧ s.reason = reason := by
  cases h with
  | @answered stage n answer hlast hread _ hverdict =>
      rw [hv] at hverdict
      cases answer with
      | ok v => cases hverdict
      | error s => exact ⟨stage, n, s, hlast, hread, (Except.error.inj hverdict).symm⟩
  | withdrawn _ hverdict => exact (hc (Except.error.inj (hv.symm.trans hverdict))).elim

theorem of_ok (h : Concluded r q run) {v : α} (hv : run.verdict = .ok v) :
    ∃ n, run.trace.LastCall q.lastStage n ∧
      r.Reads q (run.trace.calls .issue) q.lastStage n (.ok ()) := by
  cases h with
  | @answered stage n answer hlast hread hstage hverdict =>
      rw [hv] at hverdict
      cases answer with
      | ok v =>
          obtain rfl := hstage rfl
          exact ⟨n, hlast, hread⟩
      | error s => cases hverdict
  | withdrawn _ hverdict => cases hv.symm.trans hverdict

theorem of_fatal (h : Concluded r q run) (hlast : run.trace.LastCall stage n)
    (hread : r.Reads q (run.trace.calls .issue) stage n (.error (.fatal cause))) :
    run.verdict = .error cause.reason := by
  cases h with
  | answered hlast' hread' _ hverdict =>
      obtain ⟨rfl, rfl⟩ := hlast.unique hlast'
      rw [hread'.unique hread] at hverdict
      cases hv : run.verdict with
      | ok v => simp [hv, Except.map, Except.mapError] at hverdict
      | error reason => simpa [hv, Except.map, Except.mapError, Setback.reason] using hverdict
  | withdrawn _ _ hall =>
      rcases hall stage n hlast with ⟨other, hother⟩ | ⟨-, hok⟩
      · cases hread.unique hother
      · cases hread.unique hok

/-- A last call that asks for another attempt is the end of the time, unless the signal is. -/
theorem of_retryable (h : Concluded r q run) (hlast : run.trace.LastCall stage n)
    (hread : r.Reads q (run.trace.calls .issue) stage n (.error (.retryable cause))) :
    run.verdict = .error (.timedOut cause) ∨ run.verdict = .error .cancelled := by
  cases h with
  | answered hlast' hread' _ hverdict =>
      obtain ⟨rfl, rfl⟩ := hlast.unique hlast'
      rw [hread'.unique hread] at hverdict
      refine .inl ?_
      cases hv : run.verdict with
      | ok v => simp [hv, Except.map, Except.mapError] at hverdict
      | error reason => simpa [hv, Except.map, Except.mapError, Setback.reason] using hverdict
  | withdrawn _ hverdict => exact .inr hverdict

theorem of_success (h : Concluded r q run) (hlast : run.trace.LastCall stage n)
    (hread : r.Reads q (run.trace.calls .issue) stage n (.ok ())) (hs : stage = q.lastStage) :
    ∃ v, run.verdict = .ok v := by
  cases h with
  | answered hlast' hread' _ hverdict =>
      obtain ⟨rfl, rfl⟩ := hlast.unique hlast'
      rw [hread'.unique hread] at hverdict
      cases hv : run.verdict with
      | ok v => exact ⟨v, rfl⟩
      | error reason => simp [hv, Except.map, Except.mapError] at hverdict
  | withdrawn _ _ hall =>
      rcases hall stage n hlast with ⟨other, hother⟩ | ⟨hne, -⟩
      · cases hread.unique hother
      · exact (hne hs).elim

end Concluded

/-! ## Setbacks and the errors behind them -/

theorem understands_reason {e : RemoteError} {s : Setback}
    (h : r.understands q stage e = .error s) : s.reason.remoteError? = some e := by
  rcases understands_eq_error h with ⟨-, rfl⟩ | ⟨-, rfl⟩ | ⟨-, habsence⟩
  · rfl
  · rfl
  · rcases Request.absence_eq_error habsence with ⟨-, rfl⟩ | ⟨-, rfl⟩ | ⟨-, -, rfl⟩ <;> rfl

theorem attempt_reason {seen : Observation Unit} {s : Setback} (h : seen.attempt = .error s) :
    s.reason.remoteError? = none := by
  cases seen with
  | ready => cases h
  | pending | failed =>
      cases h
      rfl

theorem Reads.error_of_reason {s : Setback} {e : RemoteError} {issued : Nat}
    (h : r.Reads q issued stage n (.error s)) (he : s.reason.remoteError? = some e) :
    q.Answered issued stage n (.error e) ∧ r.understands q stage e = .error s := by
  rcases h.cases with ⟨own, hanswer, hu⟩ | ⟨-, -, hok⟩ | ⟨seen, -, -, hseen⟩
  · rw [understands_reason hu.symm] at he
    obtain rfl := Option.some.inj he
    exact ⟨hanswer, hu.symm⟩
  · cases hok
  · rw [attempt_reason hseen.symm] at he
    cases he

/-- A retryable error is the last cause of a run that is out of time, and no other error is. -/
theorem understands_timedOut_iff {e : RemoteError} {s : Setback}
    (h : r.understands q stage e = .error s) :
    r.errors.judge (q.operation stage) e = .retryable ↔ s.reason = .timedOut (.remote e) := by
  rcases understands_eq_error h with ⟨hj, rfl⟩ | ⟨hj, rfl⟩ | ⟨ha, habsence⟩
  · simp [hj, Setback.reason]
  · simp [hj, Setback.reason, Cause.reason]
  · rw [ErrorTable.judge_eq_absent_iff.mpr ha]
    rcases Request.absence_eq_error habsence with ⟨-, rfl⟩ | ⟨-, rfl⟩ | ⟨-, -, rfl⟩ <;>
      simp [Setback.reason, Cause.reason]

/-! ## Absence -/

section absence

variable {issued : Nat} {e : RemoteError} (ha : r.errors.lookup e.code = some .absent)

include ha

theorem reads_missing (hq : q.pattern = .read) (h : q.Answered issued stage n (.error e)) :
    r.Reads q issued stage n (.error (.fatal (.missing e))) := by
  have hread := reads_error (r := r) h
  rw [understands_absent ha] at hread
  cases q with
  | read => exact hread
  | write | delete | mutateThenPoll | deleteThenPoll => cases hq

theorem reads_refused (hq : q.pattern = .write) (h : q.Answered issued stage n (.error e)) :
    r.Reads q issued stage n (.error (.fatal (.remote e))) := by
  have hread := reads_error (r := r) h
  rw [understands_absent ha] at hread
  cases q with
  | write => exact hread
  | read | delete | mutateThenPoll | deleteThenPoll => cases hq

theorem reads_awaited (hq : q.pattern = .mutateThenPoll)
    (h : q.Answered issued .poll n (.error e)) :
    r.Reads q issued .poll n (.error (.retryable (.missing e))) := by
  have hread := reads_error (r := r) h
  rw [understands_absent ha] at hread
  cases q with
  | mutateThenPoll => exact hread
  | read | write | delete | deleteThenPoll => cases hq

end absence

theorem Performed.lastCall_issue (h : Performed r q w run) (hq : q.pattern.polls = false)
    (hn : run.trace.calls .issue = n + 1) : run.trace.LastCall .issue n := by
  refine ⟨hn, fun _ => h.calls_poll_eq_zero fun hp => ?_⟩
  rw [Request.polls_of_lastStage (h.lastStage_of_polls hp)] at hq
  cases hq

/-! ## Outcomes -/

/-- Which outcomes a run of a request has, by its pattern and by the answers to its calls. -/
structure OutcomeSpec (r : Reconciler σ) (q : Request α) (run : Run σ α) : Prop where
  surfaced : ∀ {reason e}, run.verdict = .error reason → reason.remoteError? = some e →
    ∃ stage n, run.trace.LastCall stage n ∧
      q.Answered (run.trace.calls .issue) stage n (.error e) ∧
      (r.errors.judge (q.operation stage) e = .retryable ↔ reason = .timedOut (.remote e))
  retryable : ∀ {stage n e}, run.trace.LastCall stage n →
    q.Answered (run.trace.calls .issue) stage n (.error e) →
      r.errors.judge (q.operation stage) e = .retryable →
        run.verdict = .error (.timedOut (.remote e)) ∨ run.verdict = .error .cancelled
  notFound_iff : ∀ {e}, run.verdict = .error (.notFound e) ↔ q.pattern = .read ∧
    ∃ n, run.trace.LastCall .issue n ∧
      q.Answered (run.trace.calls .issue) .issue n (.error e) ∧
      r.errors.lookup e.code = some .absent
  write_absent : q.pattern = .write → ∀ {n e}, n < run.trace.calls .issue →
    q.Answered (run.trace.calls .issue) .issue n (.error e) →
      r.errors.lookup e.code = some .absent →
        run.trace.LastCall .issue n ∧ run.verdict = .error (.remote e)
  delete_ok_iff : q.pattern = .delete → ((∃ v, run.verdict = .ok v) ↔
    ∃ n, n < run.trace.calls .issue ∧ r.Accepts q (run.trace.calls .issue) n)
  deletion_remote : q.pattern = .delete ∨ q.pattern = .deleteThenPoll →
    ∀ {e}, run.verdict = .error (.remote e) → r.errors.lookup e.code ≠ some .absent
  deletion_missing : q.pattern = .delete ∨ q.pattern = .deleteThenPoll →
    ∀ e, run.verdict ≠ .error (.timedOut (.missing e))
  mutate_absent : q.pattern = .mutateThenPoll → ∀ {before after : Trace} {t e},
    run.trace = before ++ .called .poll t :: after →
      q.Answered (run.trace.calls .issue) .poll (before.calls .poll) (.error e) →
        r.errors.lookup e.code = some .absent →
          (∃ action attempts now delay rest,
              after = .retrying action attempts now delay (.missing e) :: rest) ∨
            run.verdict = .error (.timedOut (.missing e))
  mutate_last : q.pattern = .mutateThenPoll → ∀ {n e}, run.trace.LastCall .poll n →
    q.Answered (run.trace.calls .issue) .poll n (.error e) →
      r.errors.lookup e.code = some .absent →
        run.verdict = .error (.timedOut (.missing e)) ∨ run.verdict = .error .cancelled
  gone : q.pattern = .deleteThenPoll → ∀ {stage n e}, n < run.trace.calls stage →
    q.Answered (run.trace.calls .issue) stage n (.error e) →
      r.errors.lookup e.code = some .absent →
        run.trace.calls stage = n + 1 ∧ (stage = .issue → run.trace.Polls) ∧
          (stage = .poll → ∃ v, run.verdict = .ok v)
  terminal_iff : ∀ {s m}, run.verdict = .error (.terminal s m) ↔
    ∃ n, run.trace.LastCall .poll n ∧
      q.observed? (run.trace.calls .issue) n = some (.failed s m)
  terminal_polls : ∀ {s m}, run.verdict = .error (.terminal s m) → q.pattern.polls = true

/-- An error that surfaces is the answer to the last call, as its loop understands it. -/
theorem Performed.surfaced (h : Performed r q w run) {reason : Reason} {e : RemoteError}
    (hv : run.verdict = .error reason) (he : reason.remoteError? = some e) :
    ∃ stage n s, run.trace.LastCall stage n ∧
      q.Answered (run.trace.calls .issue) stage n (.error e) ∧
      r.understands q stage e = .error s ∧ s.reason = reason := by
  have hc : reason ≠ .cancelled := by
    rintro rfl
    cases he
  obtain ⟨stage, n, s, hlast, hread, rfl⟩ := h.concluded.of_error hv hc
  obtain ⟨hanswer, hu⟩ := hread.error_of_reason he
  exact ⟨stage, n, s, hlast, hanswer, hu, rfl⟩

theorem Performed.of_notFound (h : Performed r q w run) {e : RemoteError}
    (hv : run.verdict = .error (.notFound e)) : q.pattern = .read ∧
      ∃ n, run.trace.LastCall .issue n ∧
        q.Answered (run.trace.calls .issue) .issue n (.error e) ∧
        r.errors.lookup e.code = some .absent := by
  obtain ⟨stage, n, s, hlast, hanswer, hu, hs⟩ := h.surfaced hv rfl
  rcases understands_eq_error hu with ⟨-, rfl⟩ | ⟨-, rfl⟩ | ⟨ha, habsence⟩
  · cases hs
  · cases hs
  · rcases Request.absence_eq_error habsence with ⟨hq, rfl⟩ | ⟨-, rfl⟩ | ⟨-, -, rfl⟩
    · cases stage with
      | issue => exact ⟨hq, n, hlast, hanswer, ha⟩
      | poll =>
          have hpolls := hanswer.polls
          rw [hq] at hpolls
          cases hpolls
    · cases hs
    · cases hs

theorem Performed.of_terminal (h : Performed r q w run) {s : String} {m : Option String}
    (hv : run.verdict = .error (.terminal s m)) : ∃ n, run.trace.LastCall .poll n ∧
      q.observed? (run.trace.calls .issue) n = some (.failed s m) := by
  obtain ⟨stage, n, setback, hlast, hread, hs⟩ := h.concluded.of_error hv (by simp)
  rcases hread.cases with ⟨e, -, hu⟩ | ⟨-, -, hok⟩ | ⟨seen, rfl, hseen, hu⟩
  · have he := understands_reason hu.symm
    rw [hs] at he
    cases he
  · cases hok
  · refine ⟨n, hlast, ?_⟩
    cases seen with
    | ready => cases hu
    | pending =>
        cases hu
        cases hs
    | failed =>
        cases hu
        cases hs
        exact hseen

theorem Performed.deletion_error (h : Performed r q w run)
    (hq : q.pattern = .delete ∨ q.pattern = .deleteThenPoll) {reason : Reason} {e : RemoteError}
    (hv : run.verdict = .error reason) (he : reason.remoteError? = some e) :
    r.errors.lookup e.code ≠ some .absent ∧
      (reason = .remote e ∨ reason = .timedOut (.remote e)) := by
  obtain ⟨stage, n, s, hlast, hanswer, hu, rfl⟩ := h.surfaced hv he
  have ha : r.errors.lookup e.code ≠ some .absent := by
    intro ha
    rw [understands_absent ha, Request.absence_eq_ok_iff.mpr hq] at hu
    cases hu
  refine ⟨ha, ?_⟩
  rcases understands_eq_error hu with ⟨-, rfl⟩ | ⟨-, rfl⟩ | ⟨ha', -⟩
  · exact .inr rfl
  · exact .inl rfl
  · exact (ha ha').elim

theorem Performed.delete_ok_iff (h : Performed r q w run) (hq : q.pattern = .delete) :
    (∃ v, run.verdict = .ok v) ↔
      ∃ n, n < run.trace.calls .issue ∧ r.Accepts q (run.trace.calls .issue) n := by
  have hlastStage : q.lastStage = .issue := by
    cases q <;> cases hq
    rfl
  constructor
  · rintro ⟨v, hv⟩
    obtain ⟨n, hlast, hread⟩ := h.concluded.of_ok hv
    rw [hlastStage] at hlast hread
    exact ⟨n, by rw [hlast.1]; exact Nat.lt_succ_self n, reads_ok_iff.mp hread⟩
  · rintro ⟨n, hn, haccepts⟩
    have hread := reads_ok_iff.mpr haccepts
    have hlast := h.lastCall_issue (by rw [hq]; rfl) (h.last_of_reads hn hread (by simp))
    exact h.concluded.of_success hlast hread hlastStage.symm

theorem Performed.gone (h : Performed r q w run) (hq : q.pattern = .deleteThenPoll)
    {e : RemoteError} (hn : n < run.trace.calls stage)
    (hanswer : q.Answered (run.trace.calls .issue) stage n (.error e))
    (ha : r.errors.lookup e.code = some .absent) :
    run.trace.calls stage = n + 1 ∧ (stage = .issue → run.trace.Polls) ∧
      (stage = .poll → ∃ v, run.verdict = .ok v) := by
  have hlastStage : q.lastStage = .poll := Request.lastStage_of_polls (by rw [hq]; rfl)
  have hread := reads_gone ha (.inr hq) hanswer
  have hlast := h.last_of_reads hn hread (by simp)
  refine ⟨hlast, ?_, ?_⟩
  · rintro rfl
    exact (h.polls_iff hlastStage).mpr ⟨n, hn, hread⟩
  · rintro rfl
    exact h.concluded.of_success ⟨hlast, nofun⟩ hread hlastStage.symm

/-- A poll that finds nothing yet is followed by another attempt, or by the end of the time. -/
theorem Performed.awaits (h : Performed r q w run) (hq : q.pattern = .mutateThenPoll)
    {before after : Trace} {t : Nanos} {e : RemoteError}
    (htrace : run.trace = before ++ .called .poll t :: after)
    (hanswer : q.Answered (run.trace.calls .issue) .poll (before.calls .poll) (.error e))
    (ha : r.errors.lookup e.code = some .absent) :
    (∃ action attempts now delay rest,
        after = .retrying action attempts now delay (.missing e) :: rest) ∨
      run.verdict = .error (.timedOut (.missing e)) := by
  have hread := reads_awaited ha hq hanswer
  have hmem : Event.called .poll t ∈ run.trace := by simp [htrace]
  cases h.loops with
  | direct _ _ hidle _ | failed _ _ hidle _ _ => exact (hidle _ hmem rfl).elim
  | polled _ _ _ hpoll =>
      refine (hpoll.after_failure htrace hread).imp_right fun hverdict => ?_
      rw [Run.verdict_outcome] at hverdict
      cases hv : run.verdict with
      | ok v => simp [hv, Except.map] at hverdict
      | error reason => simpa [hv, Except.map] using hverdict

theorem Performed.outcomeSpec (hp : Performed r q w run) : OutcomeSpec r q run := by
  refine
    { surfaced := ?_
      retryable := ?_
      notFound_iff := ?_
      write_absent := ?_
      delete_ok_iff := hp.delete_ok_iff
      deletion_remote := fun hq _ hv => (hp.deletion_error hq hv rfl).1
      deletion_missing := ?_
      mutate_absent := fun hq _ _ _ _ htrace hanswer ha => hp.awaits hq htrace hanswer ha
      mutate_last := fun hq _ _ hlast hanswer ha =>
        hp.concluded.of_retryable hlast (reads_awaited ha hq hanswer)
      gone := fun hq _ _ _ hn hanswer ha => hp.gone hq hn hanswer ha
      terminal_iff := ?_
      terminal_polls := ?_ }
  · intro reason e hv he
    obtain ⟨stage, n, s, hlast, hanswer, hu, rfl⟩ := hp.surfaced hv he
    exact ⟨stage, n, hlast, hanswer, understands_timedOut_iff hu⟩
  · intro stage n e hlast hanswer hj
    have hread := reads_error (r := r) hanswer
    rw [understands_retryable hj] at hread
    exact hp.concluded.of_retryable hlast hread
  · intro e
    refine ⟨hp.of_notFound, ?_⟩
    rintro ⟨hq, n, hlast, hanswer, ha⟩
    exact hp.concluded.of_fatal hlast (reads_missing ha hq hanswer)
  · intro hq n e hn hanswer ha
    have hread := reads_refused ha hq hanswer
    have hlast := hp.lastCall_issue (by rw [hq]; rfl) (hp.last_of_reads hn hread (by simp))
    exact ⟨hlast, hp.concluded.of_fatal hlast hread⟩
  · intro hq e hv
    rcases (hp.deletion_error hq hv rfl).2 with hr | hr <;> cases hr
  · intro s m
    refine ⟨hp.of_terminal, ?_⟩
    rintro ⟨n, hlast, hseen⟩
    exact hp.concluded.of_fatal hlast (reads_observed hseen)
  · intro s m hv
    obtain ⟨n, -, hseen⟩ := hp.of_terminal hv
    exact Request.polls_of_observed? hseen

/-! ## Requests that do not return -/

/-- Call number `n` of a stage leaves its outcome open: it gets an error that is retried, or sees
that the change is not there yet. -/
def Undecided (r : Reconciler σ) (q : Request α) (issued : Nat) (stage : Stage) (n : Nat) : Prop :=
  (∃ e, q.Answered issued stage n (.error e) ∧
    (r.errors.judge (q.operation stage) e = .retryable ∨
      q.pattern = .mutateThenPoll ∧ stage = .poll ∧ r.errors.lookup e.code = some .absent)) ∨
    stage = .poll ∧ ∃ status, q.observed? issued n = some (.pending status)

theorem Reads.undecided {issued : Nat} {cause : Cause}
    (h : r.Reads q issued stage n (.error (.retryable cause))) : r.Undecided q issued stage n := by
  rcases h.cases with ⟨e, hanswer, hu⟩ | ⟨-, -, hok⟩ | ⟨seen, rfl, hseen, hu⟩
  · refine .inl ⟨e, hanswer, ?_⟩
    rcases understands_eq_error hu.symm with ⟨hj, -⟩ | ⟨-, hs⟩ | ⟨ha, habsence⟩
    · exact .inl hj
    · cases hs
    · rcases Request.absence_eq_error habsence with ⟨-, hs⟩ | ⟨-, hs⟩ | ⟨hq, hstage, -⟩
      · cases hs
      · cases hs
      · exact .inr ⟨hq, hstage, ha⟩
  · cases hok
  · refine .inr ⟨rfl, ?_⟩
    cases seen with
    | ready => cases hu
    | pending status => exact ⟨status, hseen⟩
    | failed => cases hu

theorem Unfinished.accepted {issued : Nat} {start : Nanos}
    (h : Unfinished r q w .poll issued start) :
    ∃ n, issued = n + 1 ∧ r.Accepts q issued n ∧ ∀ m, m < n → r.Undecided q issued .issue m := by
  cases h with
  | @polling β script polls first v hs hrun hv =>
      obtain ⟨hasks, hend⟩ := Retrier.run_ending hrun
      rw [retrier_stage] at hasks hend
      obtain ⟨n, hn, ha⟩ := (hend.ok_iff v).mp (Run.verdict_ok hv)
      have hread := reads_script (hs (first.trace.calls .issue))
      refine ⟨n, hn, reads_ok_iff.mp ?_, fun m hm => ?_⟩
      · have hlast := hread n
        rw [ha] at hlast
        exact hlast
      · obtain ⟨cause, hcause⟩ := reads_asksAgain (hs (first.trace.calls .issue))
          (hasks m (by rw [hn]; exact Nat.succ_lt_succ hm))
        exact hcause.undecided

/-- Every run of a request has the outcomes of its pattern. A request that does not return has an
answer to each call, as far as they count, that leaves its outcome open. -/
theorem perform_outcome (r : Reconciler σ) (q : Request α) (w : World σ) :
    (∀ run, r.perform q w = some run → OutcomeSpec r q run) ∧
      (r.perform q w = none → ∃ stage issued start, Unfinished r q w stage issued start ∧
        (stage = .poll → ∃ n, issued = n + 1 ∧ r.Accepts q issued n ∧
          ∀ m, m < n → r.Undecided q issued .issue m) ∧
        ((r.retrier q stage).HoldsEnd start →
          ∀ n, n < Retrier.maxAttempts → r.Undecided q issued stage n)) := by
  refine ⟨fun run h => (performed h).outcomeSpec, fun h => ?_⟩
  obtain ⟨stage, issued, start, hu⟩ := unfinished h
  refine ⟨stage, issued, start, hu, ?_, fun hb n hn => ?_⟩
  · rintro rfl
    exact hu.accepted
  · obtain ⟨cause, hread⟩ := hu.asks hb hn
    exact hread.undecided

def brief : Reconciler Unit where
  gate := .unlimited
  policies := .uniform ⟨.seconds 1, .seconds 1, .seconds 2, 2, false⟩

def diskMissing : RemoteError := ⟨"ResourceNotFound", "no such disk", none⟩

/-- A disk whose creation is accepted and which never appears. -/
def lostDisk : Request Unit :=
  .mutateThenPoll ⟨"CreateDisk", false⟩ (fun _ => { answer := .ok () }) ⟨"GetDisk", true⟩
    fun _ _ => { answer := .error diskMissing }

theorem perform_outcome_lostDisk : ∃ run,
    brief.perform lostDisk ⟨{}, ()⟩ = some run ∧ run.trace.calls .poll = 2 ∧
      run.verdict = .error (.timedOut (.missing diskMissing)) ∧
      OutcomeSpec brief lostDisk run := by
  have h : (brief.perform lostDisk ⟨{}, ()⟩).map (fun run =>
      (run.trace.calls .poll, match run.verdict with | .error reason => some reason | _ => none)) =
      some (2, some (.timedOut (.missing diskMissing))) := by
    decide +kernel
  obtain ⟨run, hrun, hends⟩ := Option.map_eq_some_iff.mp h
  obtain ⟨hcalls, hreason⟩ := Prod.mk.inj hends
  have hverdict : run.verdict = .error (.timedOut (.missing diskMissing)) := by
    cases hv : run.verdict with
    | ok v => simp [hv] at hreason
    | error reason => simpa [hv] using hreason
  exact ⟨run, hrun, hcalls, hverdict, (perform_outcome _ _ _).1 run hrun⟩

end Settle.Reconciler
