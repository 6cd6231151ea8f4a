import Settle.Proofs.Retrier.Course

/-! # What a finished run says about its calls

The last call decides the result, and every call before it failed retryably. -/

namespace Settle

/-- The result of a run without its effort. -/
def Run.verdict {σ α : Type} (run : Run σ α) : Except Reason α :=
  run.result.mapError Failure.reason

namespace Run

variable {σ α : Type} {run : Run σ α}

theorem verdict_ok {v : α} (h : run.result = .ok v) : run.verdict = .ok v := by
  rw [verdict, h]
  rfl

theorem verdict_error {f : Failure} (h : run.result = .error f) :
    run.verdict = .error f.reason := by
  rw [verdict, h]
  rfl

end Run

/-- The reason for which a run ends with this setback. -/
def Setback.reason : Setback → Reason
  | .fatal cause => cause.reason
  | .retryable cause => .timedOut cause

theorem Cause.reason_inj {c d : Cause} : c.reason = d.reason ↔ c = d := by
  cases c <;> cases d <;> simp [Cause.reason]

namespace Retrier

variable {σ α : Type}

variable {r : Retrier σ} {script : Nat → Reply (Except Setback α)} {start : Nanos}
  {made : Nat} {w : World σ} {run : Run σ α}

/-! ## Time and effort -/

theorem now_le_takeTurn (r : Retrier σ) (w : World σ) :
    w.clock.now ≤ (r.takeTurn w).clock.now := by
  unfold takeTurn
  split
  · exact Nat.le_refl _
  · exact Clock.now_le_wait _ _

@[simp] theorem afterCall_now : (r.afterCall script made w).clock.now =
    (r.takeTurn w).clock.now + (script made).took := Reply.finish_now _ _

theorem now_le_afterCall : w.clock.now ≤ (r.afterCall script made w).clock.now := by
  rw [afterCall_now]
  exact Nat.le_trans (now_le_takeTurn r w) (Nat.le_add_right _ _)

theorem now_le_afterBackoff {delay : Nanos} :
    w.clock.now ≤ (r.afterBackoff script made delay w).clock.now :=
  Nat.le_trans now_le_afterCall (Clock.now_le_wait _ _)

theorem Course.now_le (h : Course r script start made w run) :
    w.clock.now ≤ run.world.clock.now := by
  induction h with
  | withdrawn => exact Nat.le_refl _
  | interrupted => exact now_le_takeTurn r _
  | succeeded => exact now_le_afterCall
  | refused => exact now_le_afterCall
  | exhausted => exact now_le_afterCall
  | retried _ _ _ _ _ ih => exact Nat.le_trans now_le_afterBackoff ih

theorem Course.effort (h : Course r script start made w run) {f : Failure}
    (hf : run.result = .error f) :
    f.attempts = made + run.trace.calls r.stage ∧
      f.elapsed = run.world.clock.now - start := by
  induction h with
  | withdrawn | interrupted =>
      cases hf
      simp [booking, Trace.calls_cons, Event.isCall]
  | succeeded => cases hf
  | refused | exhausted =>
      cases hf
      simp [Trace.calls_cons, Event.isCall]
  | retried _ _ _ _ _ ih =>
      have hrest := ih hf
      refine ⟨?_, hrest.2⟩
      simp only [hrest.1, Run.trace_after, Trace.calls_append, calls_opening, Trace.calls_cons,
        Event.isCall, Trace.calls_nil, Bool.false_eq_true, if_false]
      omega

/-! ## The last call -/

/-- How a run that starts with call number `made` ends when `calls` calls are over. Only a raised
signal ends it on an answer that asks for another attempt with time left. -/
inductive Ending (script : Nat → Reply (Except Setback α)) (made : Nat) (raised : Bool) :
    Nat → Except Reason α → Prop where
  | succeeded {n v} (hn : made ≤ n) (ha : (script n).answer = .ok v) :
      Ending script made raised (n + 1) (.ok v)
  | refused {n cause} (hn : made ≤ n) (ha : (script n).answer = .error (.fatal cause)) :
      Ending script made raised (n + 1) (.error cause.reason)
  | exhausted {n cause} (hn : made ≤ n)
      (ha : (script n).answer = .error (.retryable cause)) :
      Ending script made raised (n + 1) (.error (.timedOut cause))
  | withdrawn {calls} (hr : raised = true)
      (ha : ∀ n, made ≤ n → n + 1 = calls → AsksAgain script n) :
      Ending script made raised calls (.error .cancelled)

/-- The rules make calls in the order of the script, and only the last one ends the run. -/
theorem Course.ending (h : Course r script start made w run) {calls : Nat}
    (hk : calls = made + run.trace.calls r.stage) :
    (∀ n, made ≤ n → n + 1 < calls → AsksAgain script n) ∧
      Ending script made run.world.clock.raised calls run.verdict := by
  induction h generalizing calls with
  | @withdrawn made w hw =>
      obtain rfl : calls = made := by simpa [Trace.calls_cons, Event.isCall] using hk
      exact ⟨fun n hn hlt => by omega, .withdrawn hw fun n hn he => by omega⟩
  | @interrupted made w hw ht =>
      obtain rfl : calls = made := by simpa [booking, Trace.calls_cons, Event.isCall] using hk
      exact ⟨fun n hn hlt => by omega, .withdrawn ht fun n hn he => by omega⟩
  | @succeeded made w v hw ht ha =>
      obtain rfl : calls = made + 1 := by simpa [Trace.calls_cons, Event.isCall] using hk
      exact ⟨fun n hn hlt => by omega, .succeeded (Nat.le_refl _) ha⟩
  | @refused made w cause hw ht ha =>
      obtain rfl : calls = made + 1 := by simpa [Trace.calls_cons, Event.isCall] using hk
      exact ⟨fun n hn hlt => by omega, .refused (Nat.le_refl _) ha⟩
  | @exhausted made w cause hw ht ha hn =>
      obtain rfl : calls = made + 1 := by simpa [Trace.calls_cons, Event.isCall] using hk
      exact ⟨fun n hn hlt => by omega, .exhausted (Nat.le_refl _) ha⟩
  | @retried made w cause delay run hw ht ha hn rest ih =>
      have hrest : calls = made + 1 + run.trace.calls r.stage := by
        simpa [Trace.calls_cons, Event.isCall, Nat.add_assoc] using hk
      obtain ⟨hbefore, hend⟩ := ih hrest
      have hall : ∀ n, made ≤ n → (made + 1 ≤ n → AsksAgain script n) →
          AsksAgain script n := by
        intro n hn hlater
        rcases Nat.eq_or_lt_of_le hn with rfl | hlt
        · exact ⟨cause, ha⟩
        · exact hlater hlt
      refine ⟨fun n hn hlt => hall n hn fun hm => hbefore n hm hlt, ?_⟩
      -- The rest ends in the same way; only a withdrawal right after this call looks back at it.
      change Ending script made run.world.clock.raised calls run.verdict
      generalize run.verdict = verdict at hend ⊢
      cases hend with
      | succeeded hn ha => exact .succeeded (by omega) ha
      | refused hn ha => exact .refused (by omega) ha
      | exhausted hn ha => exact .exhausted (by omega) ha
      | withdrawn hr hlast =>
          exact .withdrawn hr fun n hn he => hall n hn fun hm => hlast n hm he

theorem run_ending (h : r.run script w = some run) :
    (∀ n, n + 1 < run.trace.calls r.stage → AsksAgain script n) ∧
      Ending script 0 run.world.clock.raised (run.trace.calls r.stage) run.verdict := by
  obtain ⟨hbefore, hend⟩ := (run_course h).2.ending (Nat.zero_add _).symm
  exact ⟨fun n hn => hbefore n (Nat.zero_le n) hn, hend⟩

/-! ## The result and the last call determine each other -/

theorem Ending.ok_iff {raised : Bool} {calls : Nat} {verdict : Except Reason α}
    (h : Ending script 0 raised calls verdict) (v : α) :
    verdict = .ok v ↔ ∃ n, calls = n + 1 ∧ (script n).answer = .ok v := by
  cases h with
  | succeeded _ ha => simp [ha]
  | refused _ ha => simp [ha]
  | exhausted _ ha => simp [ha]
  | withdrawn _ hlast =>
      refine ⟨nofun, ?_⟩
      rintro ⟨n, rfl, ha⟩
      obtain ⟨cause, hc⟩ := hlast n (Nat.zero_le n) rfl
      simp [ha] at hc

/-- A fatal cause is reported as it is, and nothing else is reported that way. -/
theorem Ending.fatal_iff {raised : Bool} {calls : Nat} {verdict : Except Reason α}
    (h : Ending script 0 raised calls verdict) (cause : Cause) :
    verdict = .error cause.reason ↔
      ∃ n, calls = n + 1 ∧ (script n).answer = .error (.fatal cause) := by
  cases h with
  | succeeded _ ha => simp [ha]
  | refused _ ha => simp [ha, Cause.reason_inj]
  | exhausted _ ha => cases cause <;> simp [ha, Cause.reason]
  | withdrawn _ hlast =>
      refine ⟨fun h => by cases cause <;> simp [Cause.reason] at h, ?_⟩
      rintro ⟨n, rfl, ha⟩
      obtain ⟨last, hc⟩ := hlast n (Nat.zero_le n) rfl
      simp [ha] at hc

theorem Ending.of_timedOut {raised : Bool} {calls : Nat} {last : Cause}
    (h : Ending script 0 raised calls (.error (.timedOut last))) :
    ∃ n, calls = n + 1 ∧ (script n).answer = .error (.retryable last) := by
  generalize hv : (.error (.timedOut last) : Except Reason α) = verdict at h
  cases h with
  | succeeded => cases hv
  | @refused _ cause => cases cause <;> simp [Cause.reason] at hv
  | exhausted _ ha =>
      cases hv
      exact ⟨_, rfl, ha⟩
  | withdrawn => cases hv

theorem Ending.of_cancelled {raised : Bool} {calls : Nat}
    (h : Ending script 0 raised calls (.error .cancelled)) :
    raised = true ∧ ∀ n, n + 1 = calls → AsksAgain script n := by
  generalize hv : (.error .cancelled : Except Reason α) = verdict at h
  cases h with
  | succeeded => cases hv
  | @refused _ cause => cases cause <;> simp [Cause.reason] at hv
  | exhausted => cases hv
  | withdrawn hr hlast => exact ⟨hr, fun n he => hlast n (Nat.zero_le n) he⟩

theorem Ending.pos_of_unraised {calls : Nat} {verdict : Except Reason α}
    (h : Ending script 0 false calls verdict) : 0 < calls := by
  cases h with
  | succeeded | refused | exhausted => exact Nat.succ_pos _
  | withdrawn hr => cases hr

theorem Course.last_of_fatal (h : Course r script start 0 w run) {n : Nat} {cause : Cause}
    (hn : n < run.trace.calls r.stage) (ha : (script n).answer = .error (.fatal cause)) :
    run.trace.calls r.stage = n + 1 ∧ run.verdict = .error cause.reason := by
  obtain ⟨hbefore, hend⟩ := h.ending (Nat.zero_add _).symm
  have hlast : run.trace.calls r.stage = n + 1 := by
    refine Nat.le_antisymm (Nat.le_of_not_lt fun hlt => ?_) hn
    obtain ⟨asked, hasked⟩ := hbefore n (Nat.zero_le n) hlt
    simp [ha] at hasked
  exact ⟨hlast, (hend.fatal_iff cause).mpr ⟨n, hlast, ha⟩⟩

theorem run_calls_pos (h : r.run script w = some run) (hr : run.world.clock.raised = false) :
    0 < run.trace.calls r.stage := by
  obtain ⟨-, hend⟩ := run_ending h
  exact (hr ▸ hend).pos_of_unraised

/-- What a run from `w` that made `calls` calls reports about them: all but the last asked for
another attempt, the last one fixed the result, and a failure counts them and their time. -/
structure OutcomeSpec (script : Nat → Reply (Except Setback α)) (w : World σ) (run : Run σ α)
    (calls : Nat) : Prop where
  retried : ∀ n, n + 1 < calls → AsksAgain script n
  ok_iff : ∀ v, run.verdict = .ok v ↔ ∃ n, calls = n + 1 ∧ (script n).answer = .ok v
  remote_iff : ∀ e, run.verdict = .error (.remote e) ↔
    ∃ n, calls = n + 1 ∧ (script n).answer = .error (.fatal (.remote e))
  notFound_iff : ∀ e, run.verdict = .error (.notFound e) ↔
    ∃ n, calls = n + 1 ∧ (script n).answer = .error (.fatal (.missing e))
  terminal_iff : ∀ s m, run.verdict = .error (.terminal s m) ↔
    ∃ n, calls = n + 1 ∧ (script n).answer = .error (.fatal (.status s m))
  timedOut : ∀ last, run.verdict = .error (.timedOut last) →
    ∃ n, calls = n + 1 ∧ (script n).answer = .error (.retryable last)
  cancelled : run.verdict = .error .cancelled →
    run.world.clock.raised = true ∧ ∀ n < calls, AsksAgain script n
  effort : ∀ f, run.result = .error f →
    f.attempts = calls ∧ w.clock.now + f.elapsed = run.world.clock.now
  called : run.world.clock.raised = false → 0 < calls

/-- Every finished run reports its calls as they were. -/
theorem run_outcome (h : r.run script w = some run) :
    OutcomeSpec script w run (run.trace.calls r.stage) := by
  obtain ⟨-, hc⟩ := run_course h
  obtain ⟨hbefore, hend⟩ := hc.ending (Nat.zero_add _).symm
  refine
    { retried := fun n hn => hbefore n (Nat.zero_le n) hn
      ok_iff := hend.ok_iff
      remote_iff := fun e => hend.fatal_iff (.remote e)
      notFound_iff := fun e => hend.fatal_iff (.missing e)
      terminal_iff := fun s m => hend.fatal_iff (.status s m)
      timedOut := fun last hv => (hv ▸ hend).of_timedOut
      cancelled := ?_
      effort := ?_
      called := fun hr => (hr ▸ hend).pos_of_unraised }
  · intro hv
    obtain ⟨hr, hlast⟩ := (hv ▸ hend).of_cancelled
    refine ⟨hr, fun n hn => ?_⟩
    rcases Nat.eq_or_lt_of_le (Nat.succ_le_of_lt hn) with he | hlt
    · exact hlast n he
    · exact hbefore n (Nat.zero_le n) hlt
  · intro f hf
    obtain ⟨hattempts, helapsed⟩ := hc.effort hf
    refine ⟨by simpa using hattempts, ?_⟩
    rw [helapsed]
    exact Nat.add_sub_of_le hc.now_le

/-- A retrier whose gate makes its first and third attempts wait. -/
def slowStart : Retrier Nat where
  policy := ⟨.seconds 1, .millis 100, .millis 400, 2, false⟩
  gate := .ofList [5, 0, 7]
  action := "GetDisk"

/-- Two answers that ask for another attempt, and one that does not. -/
def pendingThenMissing (n : Nat) : Reply (Except Setback Unit) where
  answer :=
    if n < 2 then .error (.retryable (.status "Creating" none))
    else .error (.fatal (.missing ⟨"ResourceNotFound", "no disk", none⟩))
  took := 3

theorem run_outcome_slowStart : ∃ run,
    slowStart.run pendingThenMissing ⟨{}, 0⟩ = some run ∧
      run.trace.calls .issue = 3 ∧
      OutcomeSpec pendingThenMissing ⟨{}, 0⟩ run (run.trace.calls .issue) := by
  have h : (slowStart.run pendingThenMissing ⟨{}, 0⟩).map (·.trace.calls .issue) = some 3 := by
    decide +kernel
  obtain ⟨run, hrun, hcalls⟩ := Option.map_eq_some_iff.mp h
  exact ⟨run, hrun, hcalls, run_outcome hrun⟩

end Retrier

end Settle
