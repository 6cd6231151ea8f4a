import Settle.Proofs.Reconciler.Reading
import Settle.Proofs.Retrier.Calls

/-! # The loops of a request

A request runs the loop of its issue and, once the change is accepted, that of its polls. Each
loop keeps its own calls, and the last call of all decides the result unless the signal does. -/

namespace Settle

namespace Run

variable {σ α : Type}

/-- The result without the value of a success. -/
def outcome (run : Run σ α) : Except Failure Unit := run.result.map fun _ => ()

variable {run : Run σ α}

theorem outcome_ok {v : α} (h : run.result = .ok v) : run.outcome = .ok () := by
  rw [outcome, h]
  rfl

theorem outcome_error {f : Failure} : run.outcome = .error f ↔ run.result = .error f := by
  unfold outcome
  cases run.result <;> simp [Except.map]

theorem exists_of_outcome_ok (h : run.outcome = .ok ()) : ∃ v, run.result = .ok v := by
  unfold outcome at h
  cases hr : run.result with
  | ok v => exact ⟨v, rfl⟩
  | error f => simp [hr, Except.map] at h

theorem verdict_outcome (run : Run σ α) :
    run.outcome.mapError Failure.reason = run.verdict.map fun _ => () := by
  unfold outcome verdict
  cases run.result <;> rfl

end Run

namespace Trace

/-- Call number `n` of a stage is the last call; polls come after all other calls. -/
def LastCall (t : Trace) (stage : Stage) (n : Nat) : Prop :=
  t.calls stage = n + 1 ∧ (stage = .issue → t.calls .poll = 0)

theorem LastCall.unique {t : Trace} {stage stage' : Stage} {n n' : Nat}
    (h : t.LastCall stage n) (h' : t.LastCall stage' n') : stage = stage' ∧ n = n' := by
  obtain ⟨hn, hpolls⟩ := h
  obtain ⟨hn', hpolls'⟩ := h'
  cases stage <;> cases stage' <;> grind

end Trace

namespace Reconciler

variable {σ α : Type} {r : Reconciler σ} {q : Request α} {w first last : World σ} {run : Run σ α}
  {stage : Stage} {result : Except Failure Unit} {n : Nat}

/-! ## One loop -/

/-- The loop of a stage runs from `first` to `last` with this result, and its events stand in the
trace of the whole run, which has no other calls or bookings of the stage. -/
inductive Loop (r : Reconciler σ) (q : Request α) (run : Run σ α) (stage : Stage)
    (first last : World σ) : Except Failure Unit → Prop where
  | intro {β : Type} {script : Nat → Reply (Except Setback β)} {loop : Run σ β}
      {pre post : Trace} (hrun : (r.retrier q stage).run script first = some loop)
      (hs : (r.retrier q stage).Answers script 0 (r.readings (run.trace.calls .issue) q))
      (htrace : run.trace = pre ++ loop.trace ++ post)
      (hpre : ∀ e ∈ pre, e.stage? ≠ some stage) (hpost : ∀ e ∈ post, e.stage? ≠ some stage)
      (hlast : loop.world = last) : Loop r q run stage first last loop.outcome

theorem calls_embed {pre events post : Trace} (hpre : ∀ e ∈ pre, e.stage? ≠ some stage)
    (hpost : ∀ e ∈ post, e.stage? ≠ some stage) :
    (pre ++ events ++ post).calls stage = events.calls stage := by
  rw [Trace.calls_append, Trace.calls_append, Trace.calls_eq_zero hpre,
    Trace.calls_eq_zero hpost, Nat.zero_add, Nat.add_zero]

theorem reads_script {β : Type} {script : Nat → Reply (Except Setback β)} {issued : Nat}
    (hs : (r.retrier q stage).Answers script 0 (r.readings issued q)) (n : Nat) :
    r.Reads q issued stage n ((script n).answer.map fun _ => ()) := by
  have hn := hs n
  rw [retrier_stage, Nat.zero_add] at hn
  exact ⟨_, hn, rfl⟩

theorem reads_asksAgain {β : Type} {script : Nat → Reply (Except Setback β)} {issued : Nat}
    (hs : (r.retrier q stage).Answers script 0 (r.readings issued q))
    (h : Retrier.AsksAgain script n) :
    ∃ cause, r.Reads q issued stage n (.error (.retryable cause)) := by
  obtain ⟨cause, hcause⟩ := h
  have hread := reads_script hs n
  rw [hcause] at hread
  exact ⟨cause, hread⟩

theorem Loop.asks (h : Loop r q run stage first last result)
    (hn : n + 1 < run.trace.calls stage) :
    ∃ cause, r.Reads q (run.trace.calls .issue) stage n (.error (.retryable cause)) := by
  obtain ⟨hrun, hs, htrace, hpre, hpost, -⟩ := h
  obtain ⟨hbefore, -⟩ := Retrier.run_ending hrun
  rw [htrace, calls_embed hpre hpost] at hn
  rw [retrier_stage] at hbefore
  exact reads_asksAgain hs (hbefore n hn)

/-- The last call decides the result, unless it asks for another attempt that the signal
prevents. -/
theorem Loop.ending (h : Loop r q run stage first last result) :
    (∃ n answer, run.trace.calls stage = n + 1 ∧
        r.Reads q (run.trace.calls .issue) stage n answer ∧
        result.mapError Failure.reason = answer.mapError Setback.reason) ∨
      (last.clock.raised = true ∧ result.mapError Failure.reason = .error .cancelled ∧
        ∀ n, run.trace.calls stage = n + 1 → ∃ cause,
          r.Reads q (run.trace.calls .issue) stage n (.error (.retryable cause))) := by
  obtain @⟨β, script, loop, pre, post, hrun, hs, htrace, hpre, hpost, rfl⟩ := h
  have hread := reads_script hs
  obtain ⟨-, hend⟩ := Retrier.run_ending hrun
  have hcalls : run.trace.calls stage = loop.trace.calls stage := by
    rw [htrace, calls_embed hpre hpost]
  rw [retrier_stage, ← hcalls] at hend
  rw [Run.verdict_outcome]
  generalize run.trace.calls stage = calls at hend ⊢
  generalize loop.verdict = verdict at hend ⊢
  cases hend with
  | @succeeded n v _ ha => exact .inl ⟨n, _, rfl, hread n, by rw [ha]; rfl⟩
  | @refused n cause _ ha => exact .inl ⟨n, _, rfl, hread n, by rw [ha]; rfl⟩
  | @exhausted n cause _ ha => exact .inl ⟨n, _, rfl, hread n, by rw [ha]; rfl⟩
  | withdrawn hr hlast =>
      refine .inr ⟨hr, rfl, fun n hn => ?_⟩
      exact reads_asksAgain hs (hlast n (Nat.zero_le n) hn.symm)

theorem Loop.accepted (h : Loop r q run stage first last (.ok ())) :
    ∃ n, run.trace.calls stage = n + 1 ∧
      r.Reads q (run.trace.calls .issue) stage n (.ok ()) := by
  rcases h.ending with ⟨n, answer, hn, hread, hverdict⟩ | ⟨-, hverdict, -⟩
  · cases answer with
    | ok v => exact ⟨n, hn, hread⟩
    | error s => simp [Except.mapError] at hverdict
  · simp [Except.mapError] at hverdict

theorem Loop.of_ok (h : Loop r q run stage first last result) (hn : n < run.trace.calls stage)
    (hread : r.Reads q (run.trace.calls .issue) stage n (.ok ())) :
    run.trace.calls stage = n + 1 ∧ result = .ok () := by
  have hlast : run.trace.calls stage = n + 1 := by
    refine Nat.le_antisymm (Nat.le_of_not_lt fun hlt => ?_) hn
    obtain ⟨cause, hcause⟩ := h.asks hlt
    cases hread.unique hcause
  refine ⟨hlast, ?_⟩
  rcases h.ending with ⟨m, answer, hm, hanswer, hverdict⟩ | ⟨-, -, hasks⟩
  · obtain rfl : m = n := Nat.succ.inj (hm.symm.trans hlast)
    rw [hanswer.unique hread] at hverdict
    cases result with
    | ok v => rfl
    | error f => simp [Except.mapError] at hverdict
  · obtain ⟨cause, hcause⟩ := hasks n hlast
    cases hread.unique hcause

theorem Loop.effort {f : Failure} (h : Loop r q run stage first last (.error f)) :
    f.attempts = run.trace.calls stage ∧
      first.clock.now + f.elapsed = last.clock.now := by
  generalize hresult : (.error f : Except Failure Unit) = result at h
  obtain ⟨hrun, -, htrace, hpre, hpost, rfl⟩ := h
  obtain ⟨-, hc⟩ := Retrier.run_course hrun
  obtain ⟨hattempts, helapsed⟩ := hc.effort (Run.outcome_error.mp hresult.symm)
  rw [retrier_stage, Nat.zero_add] at hattempts
  refine ⟨?_, ?_⟩
  · rw [hattempts, htrace, calls_embed hpre hpost]
  · rw [helapsed]
    exact Nat.add_sub_of_le hc.now_le

theorem Loop.proceeds (h : Loop r q run stage first last result) :
    (r.retrier q stage).Proceeds (r.readings (run.trace.calls .issue) q) run.trace
      first.clock.now := by
  obtain ⟨hrun, hs, htrace, hpre, hpost, -⟩ := h
  have hown := (Retrier.run_course hrun).2.proceeds hs
  rw [← retrier_stage r q stage] at hpre hpost
  have hembed := hown.embed hpre hpost
  rwa [← htrace] at hembed

/-- A call that asks for another attempt fails in the run of its loop, and the events after it
there come first among those after it. -/
theorem Loop.failsAt (h : Loop r q run stage first last result) {before after : Trace}
    {t : Nanos} {cause : Cause} {reading : Reply (Except Setback Unit)}
    (htrace : run.trace = before ++ .called stage t :: after)
    (hreading : r.readings (run.trace.calls .issue) q stage (before.calls stage) = some reading)
    (ha : reading.answer = .error (.retryable cause)) :
    ∃ (β : Type) (script : Nat → Reply (Except Setback β)) (loop : Run σ β)
      (front rest post : Trace), (r.retrier q stage).run script first = some loop ∧
        Retrier.FailsAt (r.retrier q stage) script 0 loop.trace front rest (front.calls stage)
          (t + reading.took) cause ∧ after = rest ++ post ∧ result = loop.outcome := by
  obtain @⟨β, script, loop, pre, post, hrun, hs, hembed, hpre, hpost, -⟩ := h
  rw [hembed] at htrace
  obtain ⟨front, rest, hloop, rfl, rfl⟩ :=
    Trace.split_middle htrace (fun he => hpre _ he rfl) fun he => hpost _ he rfl
  rw [Trace.calls_append, Trace.calls_eq_zero hpre, Nat.zero_add] at hreading
  have hown := hs (front.calls stage)
  rw [retrier_stage, Nat.zero_add, hreading] at hown
  obtain rfl := Option.some.inj hown
  refine ⟨β, script, loop, front, rest, post, hrun, ?_, rfl, rfl⟩
  exact ⟨⟨t, by rwa [retrier_stage], rfl⟩, by rw [retrier_stage, Nat.zero_add],
    Reply.of_bare_error ha⟩

theorem Loop.after_failure (h : Loop r q run stage first last result) {before after : Trace}
    {t : Nanos} {cause : Cause} (htrace : run.trace = before ++ .called stage t :: after)
    (hread : r.Reads q (run.trace.calls .issue) stage (before.calls stage)
      (.error (.retryable cause))) :
    (∃ action attempts now delay rest,
        after = .retrying action attempts now delay cause :: rest) ∨
      result.mapError Failure.reason = .error (.timedOut cause) := by
  obtain ⟨reading, hreading, ha⟩ := hread
  obtain ⟨β, script, loop, front, rest, post, hrun, hfails, rfl, rfl⟩ :=
    h.failsAt htrace hreading ha
  obtain ⟨hb, hc⟩ := Retrier.run_course hrun
  rcases hc.after_failure hb (Nat.le_refl _) hfails with ⟨-, -, hverdict, -⟩ | ⟨-, delay, more, rfl⟩
  · refine .inr ?_
    rw [Run.verdict_outcome, hverdict]
    rfl
  · exact .inl ⟨_, _, _, _, _, rfl⟩

/-- A loop with time left makes another call, unless it is withdrawn. -/
theorem Loop.again (h : Loop r q run stage first last result)
    (hv : result.mapError Failure.reason ≠ .error .cancelled) {before after : Trace}
    {t : Nanos} {cause : Cause} {reading : Reply (Except Setback Unit)}
    (htrace : run.trace = before ++ .called stage t :: after)
    (hreading : r.readings (run.trace.calls .issue) q stage (before.calls stage) = some reading)
    (ha : reading.answer = .error (.retryable cause))
    (hleft : ((t + reading.took : Nanos) : Instant) <
      (r.retrier q stage).budgetEnd first.clock.now) : 0 < after.calls stage := by
  obtain ⟨β, script, loop, front, rest, post, hrun, hfails, rfl, rfl⟩ :=
    h.failsAt htrace hreading ha
  obtain ⟨hb, hc⟩ := Retrier.run_course hrun
  have hverdict : loop.verdict ≠ .error .cancelled := by
    intro hcancelled
    refine hv ?_
    rw [Run.verdict_outcome, hcancelled]
    rfl
  rcases hc.after_failure hb (Nat.le_refl _) hfails with ⟨hspent, -⟩ | ⟨-, delay, more, rfl⟩
  · exact (Int.not_le.mpr hleft hspent).elim
  · obtain ⟨⟨called, hloop, -⟩, -, -⟩ := hfails
    rw [List.append_cons] at hloop
    have hagain := hc.called_again hverdict hloop
    rw [retrier_stage] at hagain
    rw [Trace.calls_append, Trace.calls_cons]
    omega

theorem Loop.begun (h : Loop r q run stage first last result) (hn : 0 < run.trace.calls stage) :
    run.trace.begun? stage = some first.clock.now := by
  obtain ⟨hrun, -, htrace, hpre, hpost, -⟩ := h
  rw [htrace, calls_embed hpre hpost] at hn
  have hown := (Retrier.run_course hrun).2.begun_of_calls (by rwa [retrier_stage])
  rw [retrier_stage] at hown
  rw [htrace, List.append_assoc, Trace.begun?_append hpre]
  exact Trace.begun?_of_front hown

theorem Loop.accepted_at (h : Loop r q run stage first last (.ok ())) :
    ∃ (before : Trace) (t : Nanos) (after : Trace) (reading : Reply (Except Setback Unit)),
      run.trace = before ++ .called stage t :: after ∧ after.calls stage = 0 ∧
      r.readings (run.trace.calls .issue) q stage (before.calls stage) = some reading ∧
      last.clock.now = t + reading.took := by
  generalize hresult : (.ok () : Except Failure Unit) = result at h
  obtain @⟨β, script, loop, pre, post, hrun, hs, htrace, hpre, hpost, rfl⟩ := h
  obtain ⟨v, hv⟩ := Run.exists_of_outcome_ok hresult.symm
  obtain ⟨before, t, x, hloop, hx, hnow⟩ :=
    (Retrier.run_course hrun).2.succeeded_at hv
  rw [retrier_stage] at hloop hnow
  have hquiet : Trace.Quiet [x] := by simp [hx]
  refine ⟨pre ++ before, t, x :: post, (script (before.calls stage)).bare, ?_, ?_, ?_, ?_⟩
  · rw [htrace, hloop]
    simp
  · rw [← List.singleton_append, Trace.calls_append, hquiet.calls_eq_zero,
      Trace.calls_eq_zero hpost]
  · have hn := hs (before.calls stage)
    rw [retrier_stage, Nat.zero_add] at hn
    rw [Trace.calls_append, Trace.calls_eq_zero hpre, Nat.zero_add, hn]
  · rw [hnow, Nat.zero_add]
    rfl

/-! ## The loops of a request -/

/-- The loops that a request runs: one, or two of which the second one starts where the first one
ends. -/
inductive Loops (r : Reconciler σ) (q : Request α) (w : World σ) (run : Run σ α) : Prop where
  | direct (hq : q.lastStage = .issue) (hpolls : ¬ run.trace.Polls)
      (hidle : ∀ e ∈ run.trace, e.stage? ≠ some .poll)
      (hissue : r.Loop q run .issue w run.world run.outcome)
  | failed {f : Failure} (hq : q.lastStage = .poll) (hpolls : ¬ run.trace.Polls)
      (hidle : ∀ e ∈ run.trace, e.stage? ≠ some .poll) (hf : run.result = .error f)
      (hissue : r.Loop q run .issue w run.world (.error f))
  | polled {mid : World σ} (hq : q.lastStage = .poll) (hpolls : run.trace.Polls)
      (hissue : r.Loop q run .issue w mid (.ok ()))
      (hpoll : r.Loop q run .poll mid run.world run.outcome)

theorem Performed.loops (h : Performed r q w run) : Loops r q w run := by
  cases h with
  | direct hq hs h =>
      obtain ⟨-, hc⟩ := Retrier.run_course h
      have htrace : run.trace = [] ++ run.trace ++ [] := by simp
      exact .direct hq hc.not_polls (stage_ne_of_course hc (by simp))
        (.intro h (hs _) htrace (by simp) (by simp) rfl)
  | @failed β script first action f hq hs h hf =>
      obtain ⟨-, hc⟩ := Retrier.run_course h
      have hidle : ∀ e ∈ (unpolled action first f : Run σ α).trace, e.stage? ≠ some .poll := by
        rw [unpolled_trace]
        exact Trace.stage_ne_between (stage_ne_of_course hc (by simp)) rfl rfl
      refine .failed hq (not_polls_unpolled hc) hidle rfl ?_
      rw [← Run.outcome_error.mpr hf]
      exact .intro h (hs _) unpolled_trace (by simp [Event.stage?]) (by simp [Event.stage?]) rfl
  | @polled β script polls first action v second hq hs h hv hp hpoll =>
      obtain ⟨-, hc⟩ := Retrier.run_course h
      obtain ⟨-, hd⟩ := Retrier.run_course hpoll
      have hfront : ∀ e ∈ [.opened action] ++ first.trace ++ [.advanced action .issuing .polling],
          e.stage? ≠ some .poll :=
        Trace.stage_ne_between (stage_ne_of_course hc (by simp)) rfl rfl
      have hback : ∀ e ∈ [.advanced action .issuing .polling] ++ second.trace ++
          [.advanced action .polling (.after second.result)], e.stage? ≠ some .issue :=
        Trace.stage_ne_between (stage_ne_of_course hd (by simp)) rfl rfl
      have hissued : (Reconciler.polled action first second).trace.calls .issue =
          first.trace.calls .issue := issue_calls_polled hd
      have hissue : Loop r q (Reconciler.polled action first second) .issue w first.world
          (.ok ()) := by
        have hopened : ∀ e ∈ [Event.opened action], e.stage? ≠ some .issue := by
          simp [Event.stage?]
        rw [← Run.outcome_ok hv]
        exact .intro h (hs _) (by simp [polled_trace]) hopened hback rfl
      have hpolled : Loop r q (Reconciler.polled action first second) .poll first.world
          second.world second.outcome :=
        .intro hpoll (by rwa [hissued]) polled_trace hfront (by simp [Event.stage?]) rfl
      exact .polled hq polls_polled hissue hpolled

/-! ## The calls of a request -/

variable {answer : Except Setback Unit}

theorem Loops.calls_poll_eq_zero (hidle : ∀ e ∈ run.trace, e.stage? ≠ some .poll) :
    run.trace.calls .poll = 0 := Trace.calls_eq_zero hidle

theorem Loops.of_calls (h : Loops r q w run) (hn : n < run.trace.calls stage) :
    ∃ first last result, r.Loop q run stage first last result := by
  cases stage with
  | issue =>
      cases h with
      | direct _ _ _ hissue | failed _ _ _ _ hissue | polled _ _ hissue _ =>
          exact ⟨_, _, _, hissue⟩
  | poll =>
      cases h with
      | direct _ _ hidle _ | failed _ _ hidle _ _ =>
          rw [calls_poll_eq_zero hidle] at hn
          cases hn
      | polled _ _ _ hpoll => exact ⟨_, _, _, hpoll⟩

/-- The loop of the last stage, if it has calls, has the result of the whole run. -/
theorem Loops.of_last (h : Loops r q w run) (hn : n < run.trace.calls q.lastStage) :
    ∃ first, r.Loop q run q.lastStage first run.world run.outcome := by
  cases h with
  | direct hq _ _ hissue =>
      rw [hq]
      exact ⟨w, hissue⟩
  | failed hq _ hidle _ _ =>
      rw [hq, calls_poll_eq_zero hidle] at hn
      cases hn
  | @polled mid hq _ _ hpoll =>
      rw [hq]
      exact ⟨mid, hpoll⟩

/-- Every call of a stage but its last one asks for another attempt. -/
theorem Performed.asks (h : Performed r q w run) (hn : n + 1 < run.trace.calls stage) :
    ∃ cause, r.Reads q (run.trace.calls .issue) stage n (.error (.retryable cause)) := by
  obtain ⟨first, last, result, hloop⟩ := h.loops.of_calls (Nat.lt_of_succ_lt hn)
  exact hloop.asks hn

theorem Performed.last_of_reads (h : Performed r q w run) (hn : n < run.trace.calls stage)
    (hread : r.Reads q (run.trace.calls .issue) stage n answer)
    (ha : ∀ cause, answer ≠ .error (.retryable cause)) : run.trace.calls stage = n + 1 := by
  refine Nat.le_antisymm (Nat.le_of_not_lt fun hlt => ?_) hn
  obtain ⟨cause, hcause⟩ := h.asks hlt
  exact ha cause (hread.unique hcause)

/-- A request goes on to poll when its issue is accepted, and only then. -/
theorem Performed.polls_iff (h : Performed r q w run) (hq : q.lastStage = .poll) :
    run.trace.Polls ↔ ∃ n, n < run.trace.calls .issue ∧
      r.Reads q (run.trace.calls .issue) .issue n (.ok ()) := by
  cases h.loops with
  | direct hissue =>
      rw [hq] at hissue
      cases hissue
  | failed _ hpolls _ _ hissue =>
      refine ⟨fun hp => (hpolls hp).elim, ?_⟩
      rintro ⟨n, hn, hread⟩
      cases (hissue.of_ok hn hread).2
  | polled _ hpolls hissue _ =>
      obtain ⟨n, hn, hread⟩ := hissue.accepted
      exact ⟨fun _ => ⟨n, by rw [hn]; exact Nat.lt_succ_self n, hread⟩, fun _ => hpolls⟩

theorem Performed.lastStage_of_polls (h : Performed r q w run) (hp : run.trace.Polls) :
    q.lastStage = .poll := by
  cases h.loops with
  | direct _ hpolls => exact (hpolls hp).elim
  | failed hq => exact hq
  | polled hq => exact hq

theorem Performed.calls_poll_eq_zero (h : Performed r q w run) (hp : ¬ run.trace.Polls) :
    run.trace.calls .poll = 0 := by
  cases h.loops with
  | direct _ _ hidle _ | failed _ _ hidle _ _ => exact Loops.calls_poll_eq_zero hidle
  | polled _ hpolls => exact (hp hpolls).elim

theorem Unfinished.asks {issued : Nat} {start : Nanos} (h : Unfinished r q w stage issued start)
    (hb : (r.retrier q stage).HoldsEnd start) {n : Nat} (hn : n < Retrier.maxAttempts) :
    ∃ cause, r.Reads q issued stage n (.error (.retryable cause)) := by
  cases h with
  | issuing hs hnone | polling _ _ _ hs hnone =>
      exact reads_asksAgain hs (Retrier.run_eq_none hb hnone n hn)

/-! ## The end of a request -/

/-- How a request ends: its last call decides the result, or the signal is raised while that call
leaves something to do. -/
inductive Concluded (r : Reconciler σ) (q : Request α) (run : Run σ α) : Prop where
  | answered {stage : Stage} {n : Nat} {answer : Except Setback Unit}
      (hlast : run.trace.LastCall stage n)
      (hread : r.Reads q (run.trace.calls .issue) stage n answer)
      (hstage : answer = .ok () → stage = q.lastStage)
      (hverdict : run.verdict.map (fun _ => ()) = answer.mapError Setback.reason)
  | withdrawn (hraised : run.world.clock.raised = true) (hverdict : run.verdict = .error .cancelled)
      (hlast : ∀ stage n, run.trace.LastCall stage n →
        (∃ cause, r.Reads q (run.trace.calls .issue) stage n (.error (.retryable cause))) ∨
          (stage ≠ q.lastStage ∧ r.Reads q (run.trace.calls .issue) stage n (.ok ())))

theorem verdict_eq_cancelled (h : run.verdict.map (fun _ => ()) = .error .cancelled) :
    run.verdict = .error .cancelled := by
  cases hv : run.verdict with
  | ok v => simp [hv, Except.map] at h
  | error reason => simpa [hv, Except.map] using h

/-- The loop that has the result of the whole run concludes it, if the calls of the other stage
leave nothing to do. -/
theorem Loop.concluded (h : Loop r q run stage first run.world run.outcome)
    (hstage : run.outcome = .ok () → stage = q.lastStage)
    (hpolls : stage = .issue → run.trace.calls .poll = 0)
    (hother : ∀ other n, other ≠ stage → run.trace.LastCall other n →
      other ≠ q.lastStage ∧ r.Reads q (run.trace.calls .issue) other n (.ok ())) :
    Concluded r q run := by
  rcases h.ending with ⟨n, answer, hn, hread, hverdict⟩ | ⟨hraised, hverdict, hasks⟩
  · refine .answered ⟨hn, hpolls⟩ hread ?_ (by rw [← Run.verdict_outcome, hverdict])
    rintro rfl
    refine hstage ?_
    cases hout : run.outcome with
    | ok v => rfl
    | error f =>
        rw [hout] at hverdict
        cases hverdict
  · rw [Run.verdict_outcome] at hverdict
    refine .withdrawn hraised (verdict_eq_cancelled hverdict) fun other n hlast => ?_
    by_cases ho : other = stage
    · subst ho
      exact .inl (hasks n hlast.1)
    · exact .inr (hother other n ho hlast)

theorem Loop.concluded_issue (h : Loop r q run .issue w run.world run.outcome)
    (hidle : ∀ e ∈ run.trace, e.stage? ≠ some .poll)
    (hstage : run.outcome = .ok () → .issue = q.lastStage) : Concluded r q run := by
  have hpolls := Loops.calls_poll_eq_zero hidle
  refine h.concluded hstage (fun _ => hpolls) fun other n ho hlast => ?_
  cases other with
  | issue => exact (ho rfl).elim
  | poll =>
      have hn := hlast.1
      simp [hpolls] at hn

theorem Performed.concluded (h : Performed r q w run) : Concluded r q run := by
  cases h.loops with
  | direct hq _ hidle hissue => exact hissue.concluded_issue hidle fun _ => hq.symm
  | failed hq _ hidle hf hissue =>
      have hout := Run.outcome_error.mpr hf
      rw [← hout] at hissue
      refine hissue.concluded_issue hidle fun hok => ?_
      cases hout.symm.trans hok
  | polled hq _ hissue hpoll =>
      obtain ⟨m, hm, haccepted⟩ := hissue.accepted
      refine hpoll.concluded (fun _ => hq.symm) nofun fun other n ho hlast => ?_
      cases other with
      | issue =>
          obtain rfl : m = n := Nat.succ.inj (hm.symm.trans hlast.1)
          exact ⟨by simp [hq], haccepted⟩
      | poll => exact (ho rfl).elim

end Reconciler

end Settle
