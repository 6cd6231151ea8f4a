import Mathlib.Data.List.Forall2
import Settle.Proofs.Retrier.Outcome

/-! # What the log of a run tells

A run notes every delay that it begins, with the number and the cause of the attempt before it, and
one note at its end says how it went. Between them stand the notes of the gate, which are about
turns. So the notes of the run itself can be read off its last call and its result. -/

namespace Settle

/-- The log without the notes of the gate, which are those of turns. -/
def Trace.ownLog (t : Trace) : List LogEntry := Trace.log (t.filter fun e => e.booked?.isNone)

@[simp] theorem Trace.ownLog_append (s t : Trace) : ownLog (s ++ t) = s.ownLog ++ t.ownLog := by
  simp [ownLog, log]

namespace Retrier

variable {σ α : Type} {r : Retrier σ} {script : Nat → Reply (Except Setback α)} {start : Nanos}
  {made : Nat} {w : World σ} {run : Run σ α}

/-! ## Notes -/

/-- The note of the delay after attempt number `attempt`, counted from one. -/
def delayNote (r : Retrier σ) (attempt : Nat) (delay : Nanos) (cause : Cause) : LogEntry :=
  ⟨.debug, "retrying: " ++ cause.text,
    [("action", .text r.action), ("attempts", .number attempt),
      ("delay_ms", .number (Nanos.wholeMillis delay))]⟩

/-- An entry notes the delay that the run begins after call number `n`, counted from zero. -/
def NotesDelay (r : Retrier σ) (script : Nat → Reply (Except Setback α)) (start : Nanos)
    (t : Trace) (n : Nat) (entry : LogEntry) : Prop :=
  ∃ cause now delay, (script n).answer = .error (.retryable cause) ∧
    r.next start (n + 1) now = .retryAfter delay ∧
    .retrying r.action (n + 1) now delay cause ∈ t ∧ entry = r.delayNote (n + 1) delay cause

theorem NotesDelay.mono {t u : Trace} {n : Nat} {entry : LogEntry}
    (h : r.NotesDelay script start t n entry) (htu : ∀ e ∈ t, e ∈ u) :
    r.NotesDelay script start u n entry := by
  obtain ⟨cause, now, delay, ha, hn, hmem, hentry⟩ := h
  exact ⟨cause, now, delay, ha, hn, htu _ hmem, hentry⟩

/-- An entry closes the log of a run that made `calls` calls and began `delays` delays. It says what
the verdict says, and with the cause of the last call where that call failed for good or for lack
of time. Only a run that is withdrawn began a delay after its last call. -/
inductive Closes (r : Retrier σ) (script : Nat → Reply (Except Setback α)) (elapsed : Nanos) :
    (calls delays : Nat) → Except Reason α → LogEntry → Prop where
  | succeeded {n v} (ha : (script n).answer = .ok v) :
      Closes r script elapsed (n + 1) n (.ok v)
        ⟨.debug, "remote call succeeded",
          [("action", .text r.action), ("attempts", .number (n + 1)),
            ("elapsed_ms", .number (Nanos.wholeMillis elapsed))]⟩
  | refused {n cause} (ha : (script n).answer = .error (.fatal cause)) :
      Closes r script elapsed (n + 1) n (.error cause.reason)
        ⟨.warn, "fatal error, not retrying: " ++ cause.text,
          [("action", .text r.action), ("attempts", .number (n + 1))]⟩
  | exhausted {n cause} (ha : (script n).answer = .error (.retryable cause)) :
      Closes r script elapsed (n + 1) n (.error (.timedOut cause))
        ⟨.warn, "retry budget exhausted: " ++ cause.text,
          [("action", .text r.action), ("attempts", .number (n + 1)),
            ("elapsed_ms", .number (Nanos.wholeMillis elapsed))]⟩
  | withdrawn {n} :
      Closes r script elapsed n n (.error .cancelled)
        ⟨.info, "cancelled", [("action", .text r.action), ("attempts", .number n)]⟩

/-! ## The notes of an attempt -/

@[simp] theorem ownLog_opening (r : Retrier σ) (w : World σ) : (r.opening w).ownLog = [] := rfl

/-- What a run notes after `made` calls: its delays in order, one after each call but the one that
ends it, and then how it ended. -/
theorem Course.notes (h : Course r script start made w run) : ∃ delays closing,
    run.trace.ownLog = delays ++ [closing] ∧
      List.Forall₂ (r.NotesDelay script start run.trace) (List.range' made delays.length) delays ∧
      r.Closes script (run.world.clock.now - start) (made + run.trace.calls r.stage)
        (made + delays.length) run.verdict closing := by
  induction h with
  | withdrawn | interrupted =>
      exact ⟨[], _, rfl, .nil, .withdrawn⟩
  | succeeded _ _ ha =>
      refine ⟨[], _, rfl, .nil, ?_⟩
      rw [calls_attempt rfl]
      exact .succeeded ha
  | refused _ _ ha =>
      refine ⟨[], _, rfl, .nil, ?_⟩
      rw [calls_attempt rfl]
      exact .refused ha
  | exhausted _ _ ha =>
      refine ⟨[], _, rfl, .nil, ?_⟩
      rw [calls_attempt rfl]
      exact .exhausted ha
  | @retried made w cause delay run _ _ ha hn _ ih =>
      obtain ⟨delays, closing, hlog, hdelays, hclosing⟩ := ih
      refine ⟨r.delayNote (made + 1) delay cause :: delays, closing, ?_, ?_, ?_⟩
      · simp only [Run.trace_after, Trace.ownLog_append, ownLog_opening, hlog]
        rfl
      · rw [List.length_cons, List.range'_succ]
        refine .cons ⟨cause, _, delay, ha, hn, by simp, rfl⟩ ?_
        exact hdelays.imp fun _ _ hnote => hnote.mono fun e he => by simp [he]
      · rw [Run.trace_after, List.append_assoc, List.singleton_append, calls_attempt rfl,
          List.length_cons, ← Nat.add_assoc, Nat.add_comm delays.length, ← Nat.add_assoc]
        exact hclosing

theorem Closes.calls_of_cancelled {elapsed : Nanos} {calls delays : Nat} {closing : LogEntry}
    (h : r.Closes script elapsed calls delays (.error .cancelled) closing) : calls = delays := by
  generalize hv : (.error .cancelled : Except Reason α) = verdict at h
  cases h with
  | succeeded | exhausted => cases hv
  | @refused _ cause => cases cause <;> cases hv
  | withdrawn => rfl

theorem Closes.calls_of_ne_cancelled {elapsed : Nanos} {calls delays : Nat}
    {verdict : Except Reason α} {closing : LogEntry}
    (h : r.Closes script elapsed calls delays verdict closing)
    (hv : verdict ≠ .error .cancelled) : calls = delays + 1 := by
  cases h with
  | succeeded | refused | exhausted => rfl
  | withdrawn => exact (hv rfl).elim

/-- The log of a run from `w`: a note for each delay, numbered from one, and a last note that tells
how the run ended. A run that is withdrawn noted as many delays as it made calls, every other run
one less. -/
structure LogSpec (r : Retrier σ) (script : Nat → Reply (Except Setback α)) (w : World σ)
    (run : Run σ α) (delays : List LogEntry) (closing : LogEntry) : Prop where
  log : run.trace.ownLog = delays ++ [closing]
  delayed : List.Forall₂ (r.NotesDelay script w.clock.now run.trace)
    (List.range delays.length) delays
  closes : r.Closes script (run.world.clock.now - w.clock.now) (run.trace.calls r.stage)
    delays.length run.verdict closing
  cancelled : run.verdict = .error .cancelled → delays.length = run.trace.calls r.stage
  ended : run.verdict ≠ .error .cancelled → delays.length + 1 = run.trace.calls r.stage

/-- Every finished run can be told from its log. -/
theorem run_log (h : r.run script w = some run) :
    ∃ delays closing, r.LogSpec script w run delays closing := by
  obtain ⟨delays, closing, hlog, hdelays, hclosing⟩ := (run_course h).2.notes
  rw [Nat.zero_add, Nat.zero_add] at hclosing
  rw [← List.range_eq_range'] at hdelays
  exact ⟨delays, closing,
    { log := hlog
      delayed := hdelays
      closes := hclosing
      cancelled := fun hv => (hv ▸ hclosing).calls_of_cancelled.symm
      ended := fun hv => (hclosing.calls_of_ne_cancelled hv).symm }⟩

/-- The signal comes in the second delay, so both calls have theirs noted. -/
theorem run_log_brokenOff : ∃ run,
    slowStart.run pendingThenMissing ⟨{ due := some (.millis 150) }, 0⟩ = some run ∧
      run.trace.ownLog.map LogEntry.message =
        ["retrying: status Creating", "retrying: status Creating", "cancelled"] ∧
      ∃ delays closing,
        slowStart.LogSpec pendingThenMissing ⟨{ due := some (.millis 150) }, 0⟩ run delays
          closing := by
  have h : (slowStart.run pendingThenMissing ⟨{ due := some (.millis 150) }, 0⟩).map
      (fun run => run.trace.ownLog.map LogEntry.message) =
        some ["retrying: status Creating", "retrying: status Creating", "cancelled"] := by
    decide +kernel
  obtain ⟨run, hrun, hlog⟩ := Option.map_eq_some_iff.mp h
  exact ⟨run, hrun, hlog, run_log hrun⟩

end Retrier

end Settle
