import Settle.Proofs.Reconciler.Discipline
import Settle.Proofs.Retrier.Late

/-! # One deadline for both phases

The deadline of a reconciler ends the issue and the polls of a pattern alike, and leaves each of
them at most one late call. The polls still begin with one attempt, so a change that is accepted is
observed, however late. -/

namespace Settle

/-- How a trace keeps to a deadline: every call has its own turn right before it, and of the turns
of a stage at most one is booked at `d` or later. -/
structure Trace.Punctual (d : Instant) (t : Trace) : Prop where
  booked : ∀ {before after : Trace} {stage time}, t = before ++ .called stage time :: after →
    ∃ earlier action booking wait announced,
      before = earlier ++ [.reserved stage action booking wait announced]
  late : ∀ stage, t.bookedFrom stage d ≤ 1

namespace Reconciler

variable {σ α : Type} {r : Reconciler σ} {q : Request α} {w first last : World σ} {run : Run σ α}
  {stage : Stage} {result : Except Failure Unit} {d : Instant} {start : Nanos} {t : Trace}

theorem budgetEnd_le_deadline (hd : r.deadline = some d) (q : Request α) (stage : Stage)
    (start : Nanos) : (r.retrier q stage).budgetEnd start ≤ d := by
  refine Retrier.budgetEnd_le_deadline ?_ start
  cases stage <;> exact hd

/-! ## Late calls -/

theorem Loop.bookedFrom_le_one (h : Loop r q run stage first last result)
    (hd : r.deadline = some d) : run.trace.bookedFrom stage d ≤ 1 := by
  obtain ⟨hrun, -, htrace, hpre, hpost, -⟩ := h
  have hloop := (Retrier.run_course hrun).2.inTime
  have hend := budgetEnd_le_deadline hd q stage first.clock.now
  rw [htrace, Trace.bookedFrom_append, Trace.bookedFrom_append, Trace.bookedFrom_eq_zero hpre,
    Trace.bookedFrom_eq_zero hpost, Nat.zero_add, Nat.add_zero]
  exact Retrier.bookedFrom_le_one hloop hend

/-- The issue and the polls leave at most one late turn each. -/
theorem Performed.bookedFrom_le_one (h : Performed r q w run) (hd : r.deadline = some d)
    (stage : Stage) : run.trace.bookedFrom stage d ≤ 1 := by
  cases stage with
  | issue =>
      cases h.loops with
      | direct _ _ _ hissue | failed _ _ _ _ hissue | polled _ _ hissue _ =>
          exact hissue.bookedFrom_le_one hd
  | poll =>
      cases h.loops with
      | direct _ _ hidle _ | failed _ _ hidle _ _ =>
          rw [Trace.bookedFrom_eq_zero hidle]
          exact Nat.zero_le 1
      | polled _ _ _ hpoll => exact hpoll.bookedFrom_le_one hd

/-! ## Changes that are observed -/

theorem Loop.called (h : Loop r q run stage first last result)
    (hraised : last.clock.raised = false) : 0 < run.trace.calls stage := by
  obtain ⟨hrun, -, htrace, hpre, hpost, rfl⟩ := h
  have hcalls := Retrier.run_calls_pos hrun hraised
  rw [retrier_stage] at hcalls
  rwa [htrace, calls_embed hpre hpost]

theorem Performed.polled_of_accepts (h : Performed r q w run) (hq : q.lastStage = .poll) {n : Nat}
    (hn : n < run.trace.calls .issue) (ha : r.Accepts q (run.trace.calls .issue) n)
    (hraised : run.world.clock.raised = false) : 0 < run.trace.calls .poll := by
  have hpolls := (h.polls_iff hq).mpr ⟨n, hn, reads_ok_iff.mpr ha⟩
  cases h.loops with
  | direct _ hnone => exact (hnone hpolls).elim
  | failed _ hnone => exact (hnone hpolls).elim
  | polled _ _ _ hpoll => exact hpoll.called hraised

/-! ## Requests that do not finish -/

/-- The events of a pattern that polls and does not finish, up to the last attempt that is counted
in the loop of the stage that it does not come out of. -/
inductive Underway (r : Reconciler σ) (q : Request α) (w : World σ) :
    Stage → Nanos → Trace → Prop where
  | issuing {β : Type} {script : Nat → Reply (Except Setback β)}
      (hs : (r.retrier q .issue).Answers script 0 (r.readings 0 q))
      (h : (r.retrier q .issue).run script w = none) :
      Underway r q w .issue w.clock.now
        (.opened (q.operation .issue).action :: (r.retrier q .issue).events script w)
  | polling {β : Type} {script : Nat → Reply (Except Setback β)}
      {polls : Nat → Reply (Except Setback α)} {first v}
      (hs : ∀ issued, (r.retrier q .issue).Answers script 0 (r.readings issued q))
      (h : (r.retrier q .issue).run script w = some first) (hv : first.result = .ok v)
      (hp : (r.retrier q .poll).Answers polls 0 (r.readings (first.trace.calls .issue) q))
      (hpoll : (r.retrier q .poll).run polls first.world = none) :
      Underway r q w .poll first.world.clock.now
        (.opened (q.operation .issue).action :: first.trace ++
          .advanced (q.operation .issue).action .issuing .polling ::
            (r.retrier q .poll).events polls first.world)

theorem Unfolds.underway {returned : Option (Run σ α)} (h : Unfolds r q w t returned)
    (hq : q.lastStage = .poll) (hnone : returned = none) :
    ∃ stage start, Underway r q w stage start t := by
  cases h with
  | direct hissue =>
      rw [hq] at hissue
      cases hissue
  | issuing _ hs h => exact ⟨_, _, .issuing (hs 0) h⟩
  | failed => cases hnone
  | @polling β script polls first v _ hs h hv hp =>
      have hpoll := Option.map_eq_none_iff.mp hnone
      refine ⟨.poll, first.world.clock.now, ?_⟩
      rw [hpoll, settling, List.append_nil, List.append_assoc]
      exact .polling hs h hv hp hpoll

/-- Each of two loops with a note in front leaves at most one late turn of its own stage. -/
theorem bookedFrom_notes {issued polled : Trace} {action action' : String} {source target : Phase}
    (hissued : issued.bookedFrom stage d ≤ if stage = .issue then 1 else 0)
    (hpolled : polled.bookedFrom stage d ≤ if stage = .poll then 1 else 0) :
    Trace.bookedFrom (.opened action :: issued ++ .advanced action' source target :: polled)
      stage d ≤ 1 := by
  have hopened : Trace.bookedFrom (.opened action :: issued) stage d =
      issued.bookedFrom stage d := rfl
  have hadvanced : Trace.bookedFrom (.advanced action' source target :: polled) stage d =
      polled.bookedFrom stage d := rfl
  rw [Trace.bookedFrom_append, hopened, hadvanced]
  cases stage with
  | issue => exact Nat.add_le_add hissued hpolled
  | poll => exact Nat.add_le_add hissued hpolled

theorem Underway.punctual (h : Underway r q w stage start t) (hd : r.deadline = some d) :
    t.Punctual d := by
  have hend := budgetEnd_le_deadline hd q
  cases h with
  | @issuing β script hs h =>
      have hpaced : Trace.Paced (.opened (q.operation .issue).action ::
          (r.retrier q .issue).events script w) :=
        Retrier.paced_events (fun _ => trivial) trivial
      refine ⟨hpaced.booked ⟨_, _, rfl⟩, fun stage => ?_⟩
      have hlate : ((r.retrier q .issue).events script w).bookedFrom stage d ≤
          if stage = .issue then 1 else 0 :=
        Retrier.bookedFrom_events (hend .issue w.clock.now)
      cases stage with
      | issue => exact hlate
      | poll => exact Nat.le_trans hlate (Nat.zero_le 1)
  | @polling β script polls first v hs h hv hp hpoll =>
      obtain ⟨-, hc⟩ := Retrier.run_course h
      have hpaced : Trace.Paced (.opened (q.operation .issue).action :: first.trace ++
          .advanced (q.operation .issue).action .issuing .polling ::
            (r.retrier q .poll).events polls first.world) := by
        rw [Trace.Paced, List.isChain_split]
        refine ⟨?_, ?_⟩
        · exact hc.paced_between (fun _ => trivial) trivial fun _ => trivial
        · exact Retrier.paced_events (fun _ => trivial) trivial
      refine ⟨hpaced.booked ⟨_, _, rfl⟩, fun stage => ?_⟩
      refine bookedFrom_notes (hc.bookedFrom_le (hend .issue w.clock.now)) ?_
      exact Retrier.bookedFrom_events (hend .poll first.world.clock.now)

theorem Underway.calls_eq (h : Underway r q w stage start t)
    (hb : (r.retrier q stage).HoldsEnd start) : t.calls stage = Retrier.maxAttempts := by
  cases h with
  | @issuing β script hs h =>
      have hcalls := Retrier.calls_events hb h
      rw [retrier_stage] at hcalls
      exact hcalls
  | @polling β script polls first v hs h hv hp hpoll =>
      obtain ⟨-, hc⟩ := Retrier.run_course h
      have hcalls := Retrier.calls_events hb hpoll
      rw [retrier_stage] at hcalls
      have hfirst : first.trace.calls .poll = 0 := hc.calls_other nofun
      have hopened : Trace.calls (.opened (q.operation .issue).action :: first.trace) .poll = 0 :=
        hfirst
      have hadvanced : Trace.calls (.advanced (q.operation .issue).action .issuing .polling ::
          (r.retrier q .poll).events polls first.world) .poll = Retrier.maxAttempts := hcalls
      rw [Trace.calls_append, hopened, hadvanced, Nat.zero_add]

/-! ## Runs -/

/-- How a run keeps to a deadline, and what it still does when that is past: a change that is
accepted is polled, unless the signal is raised. -/
structure DeadlineSpec (r : Reconciler σ) (q : Request α) (d : Instant) (run : Run σ α) : Prop
    extends Trace.Punctual d run.trace where
  observed : ∀ {n}, n < run.trace.calls .issue → r.Accepts q (run.trace.calls .issue) n →
    run.world.clock.raised = false → 0 < run.trace.calls .poll

/-- One deadline covers the issue and the polls: each of them books at most one turn when it is
past, but a change that is accepted is polled at least once. That holds as well of the attempts
that are counted where a loop does not end. -/
theorem perform_deadline (r : Reconciler σ) (q : Request α) (w : World σ) {d : Instant}
    (hq : q.pattern.polls = true) (hd : r.deadline = some d) :
    (∀ run, r.perform q w = some run → DeadlineSpec r q d run) ∧
      (r.perform q w = none → ∃ stage start, Underway r q w stage start (r.events q w) ∧
        (r.events q w).Punctual d ∧ ((r.retrier q stage).HoldsEnd start →
          (r.events q w).calls stage = Retrier.maxAttempts)) := by
  refine ⟨fun run h => ?_, fun h => ?_⟩
  · have hp := performed h
    have horderly := hp.orderly (Request.lastStage_of_polls hq)
    exact
      { booked := horderly.paced.booked horderly.opened
        late := hp.bookedFrom_le_one hd
        observed := hp.polled_of_accepts (Request.lastStage_of_polls hq) }
  · obtain ⟨stage, start, hunderway⟩ :=
      (unfolds r q w).underway (Request.lastStage_of_polls hq) h
    exact ⟨stage, start, hunderway, hunderway.punctual hd, hunderway.calls_eq⟩

/-- Polls every 50 milliseconds, with a deadline between two of them. -/
def overdue : Reconciler Nat where
  gate := .ofList [0]
  policies := { poll := ⟨.seconds 3, .millis 50, .millis 50, 1, false⟩ }
  deadline := some (Nanos.millis 100 : Nanos)

/-- A change that is accepted at once and does not settle. -/
def growDisk : Request Unit :=
  .mutateThenPoll ⟨"GrowDisk", false⟩ (fun _ => { answer := .ok (), took := .millis 20 })
    ⟨"GetDisk", true⟩ fun _ _ => { answer := .ok (.pending "growing") }

theorem perform_deadline_growDisk : ∃ run,
    growDisk.pattern.polls = true ∧ overdue.deadline = some (Nanos.millis 100 : Nanos) ∧
      overdue.perform growDisk ⟨{}, 0⟩ = some run ∧ run.trace.calls .issue = 1 ∧
      run.trace.calls .poll = 3 ∧ run.trace.bookedFrom .poll (Nanos.millis 100 : Nanos) = 1 ∧
      DeadlineSpec overdue growDisk (Nanos.millis 100 : Nanos) run := by
  have h : (overdue.perform growDisk ⟨{}, 0⟩).map (fun run => (run.trace.calls .issue,
      run.trace.calls .poll, run.trace.bookedFrom .poll (Nanos.millis 100 : Nanos))) =
        some (1, 3, 1) := by
    decide +kernel
  obtain ⟨run, hrun, hcounts⟩ := Option.map_eq_some_iff.mp h
  obtain ⟨hissue, hcounts⟩ := Prod.mk.inj hcounts
  obtain ⟨hpoll, hlate⟩ := Prod.mk.inj hcounts
  exact ⟨run, rfl, rfl, hrun, hissue, hpoll, hlate,
    (perform_deadline overdue growDisk _ rfl rfl).1 run hrun⟩

end Reconciler

end Settle
