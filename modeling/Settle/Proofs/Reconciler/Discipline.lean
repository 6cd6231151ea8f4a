import Settle.Proofs.Reconciler.Loop

/-! # Which calls a pattern that polls makes

The change is issued until it is accepted, and only then polled. Each of the two loops books its
turns under its own action, waits by its own policy and counts its own attempts and its own time;
the polls get the value that the change was accepted with. -/

namespace Settle.Reconciler

variable {σ α β : Type} {r : Reconciler σ} {q : Request α} {w mid : World σ} {run : Run σ α}

/-! ## The order of events -/

/-- What the events of a run show from `first` to `last`: the gate answers their bookings in turn,
turns and delays are waited out, and the stages come in order. -/
structure Orderly (r : Reconciler σ) (first last : World σ) (t : Trace) : Prop where
  opened : ∃ action rest, t = .opened action :: rest
  paced : t.Paced
  served : r.gate.Serves first.gate t last.gate
  ordered : t.Pairwise fun e later => e.stage? = some .poll → later.stage? ≠ some .issue

section trace

variable {script : Nat → Reply (Except Setback β)} {polls : Nat → Reply (Except Setback α)}
  {start start' : Nanos} {action : String} {first : Run σ β} {second : Run σ α}

theorem orderly_unpolled (hc : (r.retrier q .issue).Course script start 0 w first) (f : Failure) :
    r.Orderly w first.world (unpolled action first f : Run σ α).trace := by
  refine
    { opened := ⟨action, _, rfl⟩
      paced := ?_
      served := ?_
      ordered := ?_ }
  · exact hc.paced_between (fun _ => trivial) trivial fun _ => trivial
  · rw [unpolled_trace]
    exact hc.serves.embed (by simp [Event.booked?]) (by simp [Event.booked?])
  · rw [unpolled_trace]
    have hidle : ∀ e ∈ [.opened action] ++ first.trace ++
        [.advanced action .issuing (.ofReason f.reason)], e.stage? ≠ some .poll :=
      Trace.stage_ne_between (stage_ne_of_course hc (by simp)) rfl rfl
    exact List.pairwise_of_forall_mem_list fun e he _ _ hpoll => (hidle e he hpoll).elim

theorem orderly_polled (hc : (r.retrier q .issue).Course script start 0 w first)
    (hd : (r.retrier q .poll).Course polls start' 0 first.world second) :
    r.Orderly w second.world (polled action first second).trace := by
  refine
    { opened := ⟨action, _, rfl⟩
      paced := ?_
      served := ?_
      ordered := ?_ }
  · have htrace : (polled action first second).trace = (.opened action :: first.trace) ++
        .advanced action .issuing .polling :: (second.trace ++
          [.advanced action .polling (.after second.result)]) := by
      simp [polled]
    rw [htrace, Trace.Paced, List.isChain_split]
    refine ⟨?_, ?_⟩
    · exact hc.paced_between (fun _ => trivial) trivial fun _ => trivial
    · exact hd.paced_between (fun _ => trivial) trivial fun _ => trivial
  · rw [polled_trace]
    refine Gate.serves_append.mpr ⟨second.world.gate, ?_, rfl⟩
    refine Gate.serves_append.mpr ⟨first.world.gate, ?_, hd.serves⟩
    exact hc.serves.embed (by simp [Event.booked?]) (by simp [Event.booked?])
  · rw [polled_trace, List.append_assoc]
    have hfront : ∀ e ∈ [.opened action] ++ first.trace ++ [.advanced action .issuing .polling],
        e.stage? ≠ some .poll :=
      Trace.stage_ne_between (stage_ne_of_course hc (by simp)) rfl rfl
    have hback : ∀ e ∈ second.trace ++ [.advanced action .polling (.after second.result)],
        e.stage? ≠ some .issue := by
      refine List.forall_mem_append.mpr ⟨?_, by simp [Event.stage?]⟩
      exact stage_ne_of_course hd (by simp)
    refine List.pairwise_append.mpr ⟨?_, ?_, ?_⟩
    · exact List.pairwise_of_forall_mem_list fun e he _ _ hpoll => (hfront e he hpoll).elim
    · exact List.pairwise_of_forall_mem_list fun _ _ later hlater _ => hback later hlater
    · exact fun _ _ later hlater _ => hback later hlater

end trace

theorem Performed.orderly (h : Performed r q w run) (hq : q.lastStage = .poll) :
    r.Orderly w run.world run.trace := by
  cases h with
  | direct hissue =>
      rw [hq] at hissue
      cases hissue
  | @failed β script first action f _ _ h _ =>
      obtain ⟨-, hc⟩ := Retrier.run_course h
      exact orderly_unpolled hc f
  | polled _ _ h _ _ hpoll =>
      obtain ⟨-, hc⟩ := Retrier.run_course h
      obtain ⟨-, hd⟩ := Retrier.run_course hpoll
      exact orderly_polled hc hd

/-! ## Acceptance -/

/-- The last call that issues the change, number `n` from zero, is accepted and over at `time`. -/
structure AcceptedAt (r : Reconciler σ) (q : Request α) (run : Run σ α) (n : Nat) (time : Nanos) :
    Prop where
  calls_eq : run.trace.calls .issue = n + 1
  accepts : r.Accepts q (run.trace.calls .issue) n
  ends : ∃ (before after : Trace) (t : Nanos) (reply : Reply (Except RemoteError Unit)),
    run.trace = before ++ .called .issue t :: after ∧ after.calls .issue = 0 ∧
      q.replies (run.trace.calls .issue) .issue n = some reply ∧ time = t + reply.took

theorem Loop.acceptedAt (h : Loop r q run .issue w mid (.ok ())) :
    ∃ n, r.AcceptedAt q run n mid.clock.now := by
  obtain ⟨n, hn, hread⟩ := h.accepted
  obtain ⟨before, t, after, reading, htrace, hlast, hreading, hnow⟩ := h.accepted_at
  have hbefore : before.calls .issue = n := by
    have hcalls : run.trace.calls .issue = before.calls .issue + 1 := by
      rw [htrace, Trace.calls_called, hlast, Nat.add_zero]
    exact Nat.succ.inj (hcalls.symm.trans hn)
  rw [hbefore] at hreading
  obtain ⟨reply, hreply, htook⟩ := readings_took hreading
  exact ⟨n, hn, reads_ok_iff.mp hread, before, after, t, reply, htrace, hlast, hreply,
    by rw [hnow, htook]⟩

theorem failsRetryably_of_asksAgain {script : Nat → Reply (Except Setback β)} {issued n : Nat}
    (hs : (r.retrier q .issue).Answers script 0 (r.readings issued q))
    (h : Retrier.AsksAgain script n) : r.FailsRetryably q issued n := by
  obtain ⟨cause, hread⟩ := reads_asksAgain hs h
  exact hread.failsRetryably

/-! ## What polls are given -/

/-- Polls see the change through the value that it was accepted with alone. -/
theorem mutateThenPoll_congr {issueOp pollOp : Operation} {issue : Script β}
    {poll : β → Script (Observation α)}
    (h : r.mutateThenPoll issueOp issue pollOp poll w = some run) (hp : run.trace.Polls) {n : Nat}
    (hn : run.trace.calls .issue = n + 1) :
    ∃ v, (issue n).answer = .ok v ∧ ∀ poll' : β → Script (Observation α),
      (∀ m, m < run.trace.calls .poll → poll' v m = poll v m) →
        r.mutateThenPoll issueOp issue pollOp poll' w = some run := by
  obtain ⟨first, hissue, ⟨f, hf, rfl⟩ | ⟨v, second, hv, hpoll, rfl⟩⟩ := twoPhase_eq_some.mp h
  · exact (not_polls_unpolled (Retrier.run_course hissue).2 hp).elim
  · obtain ⟨-, hc⟩ := Retrier.run_course hissue
    obtain ⟨-, hd⟩ := Retrier.run_course hpoll
    let q : Request α := .mutateThenPoll issueOp issue pollOp poll
    rw [issue_calls_polled (r := r) (q := q) hd] at hn
    have haccepted := accepted_value hissue hv
    rw [hn, Nat.add_sub_cancel] at haccepted
    refine ⟨v, haccepted, fun poll' hagree => ?_⟩
    refine twoPhase_eq_some.mpr ⟨first, hissue, .inr ⟨v, second, hv, ?_, rfl⟩⟩
    refine Retrier.run_congr hpoll fun m hm => ?_
    rw [poll_calls_polled (r := r) (q := q) hc] at hagree
    rw [hagree m hm]

/-! ## Runs -/

/-- Which calls a run of a pattern that polls makes: it issues the change until it is accepted, then
polls, and each loop goes by its own action, policy and budget. -/
structure DisciplineSpec (r : Reconciler σ) (q : Request α) (w : World σ) (run : Run σ α) : Prop
    extends Orderly r w run.world run.trace where
  issue : (r.issuer r.policies.write (q.operation .issue)).Proceeds
    (r.readings (run.trace.calls .issue) q) run.trace w.clock.now
  retried : ∀ {n}, n + 1 < run.trace.calls .issue →
    r.FailsRetryably q (run.trace.calls .issue) n
  accepted : ∀ {n}, n < run.trace.calls .issue → r.Accepts q (run.trace.calls .issue) n →
    run.trace.calls .issue = n + 1 ∧ run.trace.Polls
  unpolled : ¬ run.trace.Polls → (∀ e ∈ run.trace, e.stage? ≠ some .poll) ∧
    ∃ f, run.result = .error f ∧ f.attempts = run.trace.calls .issue ∧
      w.clock.now + f.elapsed = run.world.clock.now
  polled : run.trace.Polls → ∃ n start, r.AcceptedAt q run n start ∧
    (r.poller (q.operation .poll)).Proceeds (r.readings (run.trace.calls .issue) q) run.trace
      start ∧
    ∀ f, run.result = .error f → f.attempts = run.trace.calls .poll ∧
      start + f.elapsed = run.world.clock.now
  argument : ∀ {β : Type} {issueOp pollOp} {issue : Script β} {poll : β → Script (Observation α)},
    q = .mutateThenPoll issueOp issue pollOp poll → run.trace.Polls →
      ∀ {n}, run.trace.calls .issue = n + 1 → ∃ v, (issue n).answer = .ok v ∧
        ∀ poll' : β → Script (Observation α),
          (∀ m, m < run.trace.calls .poll → poll' v m = poll v m) →
            r.perform (.mutateThenPoll issueOp issue pollOp poll') w = some run

theorem retrier_issue (hq : q.pattern.polls = true) :
    r.retrier q .issue = r.issuer r.policies.write (q.operation .issue) := by
  cases q with
  | read | write | delete => cases hq
  | mutateThenPoll | deleteThenPoll => rfl

theorem disciplineSpec (hq : q.pattern.polls = true) (h : r.perform q w = some run) :
    DisciplineSpec r q w run := by
  have hp := performed h
  have hstage := Request.lastStage_of_polls hq
  refine
    { hp.orderly hstage with
      issue := ?_
      retried := ?_
      accepted := ?_
      unpolled := ?_
      polled := ?_
      argument := ?_ }
  · rw [← retrier_issue hq]
    cases hp.loops with
    | direct _ _ _ hissue | failed _ _ _ _ hissue | polled _ _ hissue => exact hissue.proceeds
  · intro n hn
    obtain ⟨cause, hcause⟩ := hp.asks hn
    exact hcause.failsRetryably
  · intro n hn haccepts
    have hread := reads_ok_iff.mpr haccepts
    exact ⟨hp.last_of_reads hn hread (by simp), (hp.polls_iff hstage).mpr ⟨n, hn, hread⟩⟩
  · intro hpolls
    cases hp.loops with
    | direct hissue =>
        rw [hstage] at hissue
        cases hissue
    | @failed f _ _ hidle hf hissue => exact ⟨hidle, f, hf, hissue.effort⟩
    | polled _ h => exact (hpolls h).elim
  · intro hpolls
    cases hp.loops with
    | direct _ h | failed _ h => exact (h hpolls).elim
    | @polled mid _ _ hissue hpoll =>
        obtain ⟨n, hn⟩ := hissue.acceptedAt
        refine ⟨n, mid.clock.now, hn, hpoll.proceeds, fun f hf => ?_⟩
        rw [Run.outcome_error.mpr hf] at hpoll
        exact hpoll.effort
  · rintro β issueOp pollOp issue poll rfl hpolls n hn
    exact mutateThenPoll_congr h hpolls hn

/-- A pattern that polls issues its change until it is accepted and only then polls; where it does
not finish, it has issued the change in the same way. -/
theorem perform_discipline (r : Reconciler σ) (q : Request α) (w : World σ)
    (hq : q.pattern.polls = true) :
    (∀ run, r.perform q w = some run → DisciplineSpec r q w run) ∧
      (r.perform q w = none → ∃ stage issued start, Unfinished r q w stage issued start ∧
        (∀ n, n + 1 < issued → r.FailsRetryably q issued n) ∧
        (stage = .poll → ∃ n, issued = n + 1 ∧ r.Accepts q issued n) ∧
        (stage = .issue → (r.retrier q .issue).HoldsEnd start →
          ∀ n, n < Retrier.maxAttempts → r.FailsRetryably q issued n)) := by
  refine ⟨fun run h => disciplineSpec hq h, fun h => ?_⟩
  obtain ⟨stage, issued, start, hu⟩ := unfinished h
  refine ⟨stage, issued, start, hu, ?_⟩
  cases hu with
  | issuing hs hnone =>
      refine ⟨nofun, nofun, fun _ hb n hn => ?_⟩
      exact failsRetryably_of_asksAgain hs (Retrier.run_eq_none hb hnone n hn)
  | @polling β script polls first v hs hrun hv _ _ =>
      obtain ⟨hbefore, hend⟩ := (Retrier.run_course hrun).2.ending (Nat.zero_add _).symm
      refine ⟨fun n hn => ?_, fun _ => ?_, nofun⟩
      · exact failsRetryably_of_asksAgain (hs _) (hbefore n (Nat.zero_le n) hn)
      · obtain ⟨n, hn, ha⟩ := (hend.ok_iff v).mp (Run.verdict_ok hv)
        have hread := reads_script (hs (first.trace.calls .issue)) n
        rw [ha] at hread
        exact ⟨n, hn, reads_ok_iff.mp hread⟩

def twoPaced : Reconciler Nat where
  gate := .ofList [0, 5, 0]
  policies :=
    { write := ⟨.seconds 5, .seconds 1, .seconds 4, 2, false⟩
      poll := ⟨.seconds 3, .millis 500, .seconds 1, 2, false⟩ }

/-- A change that is accepted at the second attempt, and settles after as many polls as it says. -/
def resizeDisk : Request Unit :=
  .mutateThenPoll ⟨"ResizeDisk", false⟩
    (fun n => if n = 0 then { answer := .error ⟨"ResourceBusy", "busy", none⟩, took := 3 }
      else { answer := .ok 1, took := .millis 20 })
    ⟨"GetDisk", true⟩
    fun polls n => { answer := .ok (if n < polls then .pending "resizing" else .ready ()) }

theorem perform_discipline_resizeDisk : ∃ run,
    resizeDisk.pattern.polls = true ∧ twoPaced.perform resizeDisk ⟨{}, 0⟩ = some run ∧
      run.trace.calls .issue = 2 ∧ run.trace.calls .poll = 2 ∧
      DisciplineSpec twoPaced resizeDisk ⟨{}, 0⟩ run := by
  have h : (twoPaced.perform resizeDisk ⟨{}, 0⟩).map
      (fun run => (run.trace.calls .issue, run.trace.calls .poll)) = some (2, 2) := by
    decide +kernel
  obtain ⟨run, hrun, hcalls⟩ := Option.map_eq_some_iff.mp h
  obtain ⟨hissue, hpoll⟩ := Prod.mk.inj hcalls
  exact ⟨run, rfl, hrun, hissue, hpoll, (perform_discipline _ _ _ rfl).1 run hrun⟩

end Settle.Reconciler
