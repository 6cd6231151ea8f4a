import Settle.Proofs.Reconciler.Request

/-! # How a signal ends a request

The signal ends the loop that it is raised in. When that is the issue, and the change is accepted,
the polls begin with the signal raised, so nothing is polled. -/

namespace Settle.Reconciler

variable {σ α : Type} {r : Reconciler σ} {q : Request α} {w : World σ} {run : Run σ α}
  {returned : Option (Run σ α)} {before after t : Trace} {e : Event} {finish u : Nanos}
  {flight : Option (Stage × Reply (Except Setback Unit))}

/-- The result of a run whose signal was raised in a wait or during a call, by what that call
answered. -/
inductive CutShort (r : Reconciler σ) (q : Request α) (run : Run σ α) :
    Option (Stage × Reply (Except Setback Unit)) → Prop where
  | waiting (h : run.verdict = .error .cancelled) : CutShort r q run none
  | accepted {reply} (hq : q.lastStage = .poll) (ha : reply.answer = .ok ())
      (hpolls : run.trace.calls .poll = 0) (h : run.result = .error ⟨.cancelled, 0, 0⟩) :
      CutShort r q run (some (.issue, reply))
  | decided {stage reply start} (hlast : reply.answer = .ok () → stage = q.lastStage)
      (hbegun : run.trace.begun? stage = some start)
      (h : run.verdict.map (fun _ => ()) =
        (r.retrier q stage).closing start run.world.clock.now reply.answer) :
      CutShort r q run (some (stage, reply))

/-- Where the call in flight accepts a change, the end of the budget of its polls can be held. -/
def Timed (r : Reconciler σ) (q : Request α) (now : Nanos) :
    Option (Stage × Reply (Except Setback Unit)) → Prop
  | some (.issue, reply) =>
    reply.answer = .ok () → q.lastStage = .poll → (r.retrier q .poll).HoldsEnd now
  | _ => True

/-- What cuts one loop short cuts the request short, if the loop is over with it. -/
theorem CutShort.of_loop {β : Type} {stage : Stage} {start : Nanos} {verdict : Except Reason β}
    {flight : Option (Stage × Reply (Except Setback Unit))}
    (h : (r.retrier q stage).CutShort start run.world.clock.now flight verdict)
    (hv : run.verdict.map (fun _ => ()) = verdict.map fun _ => ())
    (hlast : verdict.map (fun _ => ()) = .ok () → stage = q.lastStage)
    (hbegun : run.trace.begun? stage = some start) : CutShort r q run flight := by
  cases h with
  | waiting =>
      refine .waiting ?_
      cases hr : run.verdict with
      | ok v => simp [hr, Except.map] at hv
      | error reason => simpa [hr, Except.map] using hv
  | answered h =>
      rw [retrier_stage]
      refine .decided (fun hok => hlast ?_) hbegun (hv.trans h)
      rw [h, hok]
      rfl

/-! ## Notes -/

theorem quiet_opened (action : String) : Trace.Quiet [.opened action] := by simp [Event.start?]

theorem quiet_advanced (action : String) (source target : Phase) :
    Trace.Quiet [.advanced action source target] := by simp [Event.start?]

theorem quiet_settling (action : String) (second : Option (Run σ α)) :
    (settling action second).Quiet := by
  cases second with
  | none => exact Trace.quiet_nil
  | some second => exact quiet_advanced _ _ _

/-! ## The events of the issue -/

section issue

variable {β : Type} {script : Nat → Reply (Except Setback β)} {start : Nanos} {made : Nat}
  {replies : Replies (Except Setback Unit)} {first : Run σ β} {post : Trace}

theorem begunBy_issue (h : (r.retrier q .issue).Course script start made w first)
    (action : String) (hpost : post.Quiet) :
    Trace.BegunBy ([.opened action] ++ first.trace ++ post) first.world.clock.now := by
  rw [Trace.begunBy_append, Trace.begunBy_append]
  exact ⟨⟨(quiet_opened action).begunBy _, h.begunBy⟩, hpost.begunBy _⟩

theorem not_raisesAt_issue (h : (r.retrier q .issue).Course script start made w first)
    (ha : (r.retrier q .issue).Answers script made replies)
    (hend : first.world.clock.raised = false) (action : String) (hpost : post.Quiet) (u : Nanos) :
    ¬ Trace.RaisesAt replies ([.opened action] ++ first.trace ++ post) u := by
  have hopened := quiet_opened action
  rw [Trace.raisesAt_embed (fun _ => hopened.not_raisesAt) hpost]
  exact (h.unraised (ha.shift (hopened.calls_eq_zero _)) hend).2 u

theorem stage_ne_front (h : (r.retrier q .issue).Course script start made w first)
    (action : String) :
    ∀ e ∈ [.opened action] ++ first.trace ++ [.advanced action .issuing .polling],
      Event.stage? e ≠ some .poll :=
  Trace.stage_ne_between (stage_ne_of_course h (by simp)) rfl rfl

end issue

/-! ## A signal that is not raised during the run -/

theorem Performed.of_unraised (h : Performed r q w run) (hend : run.world.clock.raised = false) :
    run.world.clock.signal? = w.clock.signal? ∧
      ∀ u, ¬ Trace.RaisesAt (r.readings (run.trace.calls .issue) q) run.trace u := by
  cases h with
  | direct _ ha h =>
      obtain ⟨-, hc⟩ := Retrier.run_course h
      obtain ⟨hsignal, hraise⟩ := hc.unraised (ha _) hend
      exact ⟨hsignal, hraise⟩
  | failed _ ha h hf =>
      obtain ⟨-, hc⟩ := Retrier.run_course h
      rw [unpolled_trace]
      exact ⟨(hc.unraised (ha 0) hend).1,
        not_raisesAt_issue hc (ha _) hend _ (quiet_advanced _ _ _)⟩
  | @polled β script polls first action v second _ ha h hv hp hpoll =>
      obtain ⟨-, hc⟩ := Retrier.run_course h
      obtain ⟨-, hd⟩ := Retrier.run_course hpoll
      have hfirst : first.world.clock.raised = false := by
        cases hraised : first.world.clock.raised with
        | false => rfl
        | true =>
            obtain rfl := hd.of_raised hraised
            exact hraised.symm.trans hend
      have hquiet := quiet_advanced action .issuing .polling
      have hpolls := hp.shift (Trace.calls_eq_zero (stage_ne_front hc action))
      obtain ⟨hsignal, hraise⟩ := hd.unraised hpolls hend
      refine ⟨hsignal.trans (hc.unraised (ha 0) hfirst).1, fun u => ?_⟩
      rw [issue_calls_polled hd, polled_trace,
        Trace.raisesAt_embed (not_raisesAt_issue hc (ha _) hfirst action hquiet)
          (quiet_advanced _ _ _)]
      exact hraise u

theorem Performed.met (h : Performed r q w run) (hw : w.clock.raised = false)
    (hend : run.world.clock.raised = true) :
    ∃ u, Met (r.readings (run.trace.calls .issue) q) w.clock.signal? run.trace u := by
  cases h with
  | direct _ ha h =>
      obtain ⟨u, -, hmet⟩ := (Retrier.run_course h).2.met (ha _) hw hend
      exact ⟨u, hmet⟩
  | @failed β script first action f _ ha h hf =>
      have hopened := quiet_opened action
      obtain ⟨u, -, hmet⟩ :=
        (Retrier.run_course h).2.met ((ha _).shift (hopened.calls_eq_zero _)) hw hend
      exact ⟨u, hmet.embed (fun _ => hopened.not_raisesAt) (hopened.begunBy u)
        (quiet_advanced _ _ _)⟩
  | @polled β script polls first action v second _ ha h hv hp hpoll =>
      obtain ⟨-, hc⟩ := Retrier.run_course h
      obtain ⟨-, hd⟩ := Retrier.run_course hpoll
      have hopened := quiet_opened action
      have hadvanced := quiet_advanced action .issuing .polling
      rw [issue_calls_polled hd, polled_trace]
      cases hfirst : first.world.clock.raised with
      | true =>
          obtain rfl := hd.of_raised hfirst
          obtain ⟨u, -, hmet⟩ := hc.met
            ((ha (first.trace.calls .issue)).shift (hopened.calls_eq_zero _)) hw hfirst
          refine ⟨u, ?_⟩
          rw [List.append_assoc, List.append_assoc]
          exact hmet.embed (fun _ => hopened.not_raisesAt) (hopened.begunBy u)
            (by simp [Event.start?])
      | false =>
          obtain ⟨u, hle, hmet⟩ := hd.met
            (hp.shift (Trace.calls_eq_zero (stage_ne_front hc action))) hfirst hend
          rw [(hc.unraised (ha 0) hfirst).1] at hmet
          exact ⟨u, hmet.embed (not_raisesAt_issue hc (ha _) hfirst action hadvanced)
            ((begunBy_issue hc action hadvanced).mono hle) (quiet_advanced _ _ _)⟩

/-! ## A signal that is raised during the run -/

theorem not_mem_opened {replies : Replies (Except Setback Unit)} {due : Option Nanos}
    (he : RaisedIn replies due before u e finish flight) (action : String) :
    e ∉ [Event.opened action] := by
  intro hmem
  obtain rfl := List.mem_singleton.mp hmem
  cases he

theorem not_mem_advanced {replies : Replies (Except Setback Unit)} {due : Option Nanos}
    (he : RaisedIn replies due before u e finish flight) (action : String) (source target : Phase) :
    e ∉ [Event.advanced action source target] := by
  intro hmem
  obtain rfl := List.mem_singleton.mp hmem
  cases he

theorem not_mem_settling {replies : Replies (Except Setback Unit)} {due : Option Nanos}
    (he : RaisedIn replies due before u e finish flight) (action : String) :
    e ∉ settling action returned := by
  cases returned with
  | none => exact List.not_mem_nil
  | some second => exact not_mem_advanced he _ _ _

section issue

variable {β : Type} {script : Nat → Reply (Except Setback β)} {post : Trace} {issued : Nat}
  {action : String}

theorem opened_issue {first : Run σ β} (h : (r.retrier q .issue).run script w = some first)
    (post : Trace) : [.opened action] ++ first.trace ++ post =
      [.opened action] ++ (r.retrier q .issue).events script w ++ post := by
  rw [Retrier.events_of_run h]

/-- A signal that is raised in the issue ends it there. -/
theorem issue_stops (ha : (r.retrier q .issue).Answers script 0 (r.readings issued q))
    (hw : w.clock.raised = false)
    (ht : t = [.opened action] ++ (r.retrier q .issue).events script w ++ post)
    (hnot : NotBefore (r.readings issued q) w.clock.signal? t u)
    (htrace : t = before ++ e :: after) (hpost : e ∉ post)
    (he : RaisedIn (r.readings issued q) w.clock.signal? before u e finish flight) :
    ∃ rest first, after = rest ++ post ∧ rest.Quiet ∧
      (r.retrier q .issue).run script w = some first ∧ first.world.clock.raised = true ∧
      first.world.clock.now = finish ∧
      (r.retrier q .issue).CutShort w.clock.now finish flight first.verdict := by
  rw [ht] at hnot
  obtain ⟨front, rest, hevents, rfl, rfl⟩ :=
    Trace.split_middle (ht.symm.trans htrace) (not_mem_opened he action) hpost
  obtain ⟨hquiet, first, hfirst⟩ := Retrier.events_stops
    (ha.shift ((quiet_opened action).calls_eq_zero _)) hw hnot.front.back hevents
    (raisedIn_shift.mpr he)
  exact ⟨rest, first, rfl, hquiet, hfirst⟩

theorem issue_begunBy (ha : (r.retrier q .issue).Answers script 0 (r.readings issued q))
    (hw : w.clock.raised = false) (hpost : post.Quiet)
    (ht : t = [.opened action] ++ (r.retrier q .issue).events script w ++ post)
    (hsignal : SignalAt (r.readings issued q) w.clock.signal? t u) : t.BegunBy u := by
  have hopened := quiet_opened action
  rw [ht, signalAt_embed (fun _ => hopened.not_raisesAt) hpost] at hsignal
  rw [ht, Trace.begunBy_append, Trace.begunBy_append]
  exact ⟨⟨hopened.begunBy u,
    (Retrier.events_begunBy (ha.shift (hopened.calls_eq_zero _)) hw hsignal).2⟩,
    hpost.begunBy u⟩

end issue

section polling

variable {β : Type} {script : Nat → Reply (Except Setback β)}
  {polls : Nat → Reply (Except Setback α)} {first : Run σ β} {v : β} {action : String}

theorem issue_calls_polling : Trace.calls (([.opened action] ++ first.trace ++
    [.advanced action .issuing .polling]) ++ (r.retrier q .poll).events polls first.world ++
      settling action returned) .issue = first.trace.calls .issue := by
  have hpolls : ((r.retrier q .poll).events polls first.world).calls .issue = 0 := by
    refine Trace.calls_eq_zero fun e he hs => ?_
    have hstage := Retrier.stage_eq_of_events he hs
    rw [retrier_stage] at hstage
    cases hstage
  simp only [Trace.calls_append, hpolls, (quiet_opened action).calls_eq_zero,
    (quiet_advanced action _ _).calls_eq_zero, (quiet_settling action returned).calls_eq_zero,
    Nat.zero_add, Nat.add_zero]

theorem polling_stops_issue (hq : q.lastStage = .poll)
    (h : (r.retrier q .issue).run script w = some first) (hv : first.result = .ok v)
    (hraised : first.world.clock.raised = true) (hnow : first.world.clock.now = finish)
    (hcut : (r.retrier q .issue).CutShort w.clock.now finish flight first.verdict)
    (htimed : r.Timed q finish flight) :
    ∃ run, ((r.retrier q .poll).run polls first.world).map (polled action first) = some run ∧
      run.world.clock.raised = true ∧ run.world.clock.now = finish ∧ CutShort r q run flight := by
  obtain ⟨-, hc⟩ := Retrier.run_course h
  have hverdict := Run.verdict_ok hv
  generalize first.verdict = verdict at hcut hverdict
  cases hcut with
  | waiting => cases hverdict
  | @answered reply _ hclosing =>
      rw [hverdict] at hclosing
      have hok := Retrier.closing_eq_ok.mp hclosing.symm
      have hb : (r.retrier q .poll).HoldsEnd first.world.clock.now := hnow ▸ htimed hok hq
      refine ⟨_, congrArg (Option.map _) (Retrier.run_of_raised hb hraised), hraised, hnow, ?_⟩
      refine .accepted hq hok ?_ ?_
      · rw [poll_calls_polled hc, Retrier.withdrawn_trace]
        rfl
      · simp [Reconciler.polled, Retrier.withdrawn_result]

theorem polling_stops_polls {replies : Replies (Except Setback Unit)} {start : Nanos}
    {made : Nat} {front : Trace} (hq : q.lastStage = .poll)
    (hc : (r.retrier q .issue).Course script start made w first)
    (hp : (r.retrier q .poll).Answers polls 0 replies)
    (hfirst : first.world.clock.raised = false)
    (hnot : NotBefore replies first.world.clock.signal?
      ((r.retrier q .poll).events polls first.world) u)
    (htrace : (r.retrier q .poll).events polls first.world = front ++ e :: after)
    (he : RaisedIn replies first.world.clock.signal? front u e finish flight) :
    after.Quiet ∧
      ∃ run, ((r.retrier q .poll).run polls first.world).map (polled action first) = some run ∧
        run.world.clock.raised = true ∧ run.world.clock.now = finish ∧
        CutShort r q run flight := by
  obtain ⟨hquiet, second, hsecond, hraised, hnow, hcut⟩ :=
    Retrier.events_stops hp hfirst hnot htrace he
  refine ⟨hquiet, _, congrArg (Option.map _) hsecond, hraised, hnow,
    .of_loop (hnow ▸ hcut) rfl (fun _ => hq.symm) ?_⟩
  rw [polled_trace, List.append_assoc, Trace.begun?_append (stage_ne_front hc _)]
  exact Trace.begun?_of_front ((Retrier.run_course hsecond).2.begun hfirst)

end polling

/-- A signal that is raised in an event of a request ends the request there. -/
theorem Unfolds.stops (h : Unfolds r q w t returned) (hw : w.clock.raised = false)
    (hnot : NotBefore (r.readings (t.calls .issue) q) w.clock.signal? t u)
    (htrace : t = before ++ e :: after)
    (he : RaisedIn (r.readings (t.calls .issue) q) w.clock.signal? before u e finish flight) :
    after.Quiet ∧ (r.Timed q finish flight → ∃ run, returned = some run ∧
      run.world.clock.raised = true ∧ run.world.clock.now = finish ∧ CutShort r q run flight) := by
  cases h with
  | direct hq ha =>
      obtain ⟨hquiet, run, hrun, hraised, hnow, hcut⟩ :=
        Retrier.events_stops (ha _) hw hnot htrace he
      have hbegun := (Retrier.run_course hrun).2.begun hw
      exact ⟨hquiet, fun _ => ⟨run, hrun, hraised, hnow,
        .of_loop (hnow ▸ hcut) rfl (fun _ => hq.symm) hbegun⟩⟩
  | issuing _ ha h =>
      obtain ⟨-, first, -, -, hrun, -⟩ :=
        issue_stops (ha _) hw (List.append_nil _).symm hnot htrace List.not_mem_nil he
      rw [h] at hrun
      cases hrun
  | @failed β script first f _ ha h hf =>
      obtain ⟨rest, run, rfl, hquiet, hrun, hraised, hnow, hcut⟩ :=
        issue_stops (ha _) hw (opened_issue h _) hnot htrace (not_mem_advanced he _ _ _) he
      obtain rfl := Option.some.inj (h.symm.trans hrun)
      have hverdict := Run.verdict_error hf
      refine ⟨Trace.quiet_append.mpr ⟨hquiet, quiet_advanced _ _ _⟩, fun _ =>
        ⟨_, rfl, hraised, hnow, .of_loop (hnow ▸ hcut) ?_ ?_ ?_⟩⟩
      · rw [hverdict]
        rfl
      · rw [hverdict]
        intro hok
        cases hok
      · rw [unpolled_trace, List.append_assoc, Trace.begun?_append (by simp [Event.stage?])]
        exact Trace.begun?_of_front ((Retrier.run_course h).2.begun hw)
  | @polling β script polls first v hq ha h hv hp =>
      obtain ⟨-, hc⟩ := Retrier.run_course h
      rw [issue_calls_polling] at hnot he
      rcases Trace.split_append htrace with ⟨mid, hloops, rfl⟩ | ⟨mid, -, hlast⟩
      · rcases Trace.split_append hloops with ⟨rest, hissue, rfl⟩ | ⟨front, rfl, hpolls⟩
        · obtain ⟨quiet, run, rfl, hquiet, hrun, hraised, hnow, hcut⟩ := issue_stops (ha _) hw
            (opened_issue h _) hnot.front.front hissue (not_mem_advanced he _ _ _) he
          obtain rfl := Option.some.inj (h.symm.trans hrun)
          refine ⟨?_, polling_stops_issue hq h hv hraised hnow hcut⟩
          simp only [Trace.quiet_append]
          exact ⟨⟨⟨hquiet, quiet_advanced _ _ _⟩, Retrier.quiet_events_of_raised hraised⟩,
            quiet_settling _ _⟩
        · cases hfirst : first.world.clock.raised with
          | true =>
              have hcancelled := Retrier.events_of_raised hfirst e (by rw [hpolls]; simp)
              rw [hcancelled] at he
              cases he
          | false =>
              rw [← (hc.unraised (ha 0) hfirst).1] at hnot he
              obtain ⟨hquiet, hend⟩ := polling_stops_polls hq hc
                (hp.shift (Trace.calls_eq_zero (stage_ne_front hc _))) hfirst hnot.front.back
                hpolls (raisedIn_shift.mpr he)
              exact ⟨Trace.quiet_append.mpr ⟨hquiet, quiet_settling _ _⟩, fun _ => hend⟩
      · exact (not_mem_settling he _ (by rw [hlast]; simp)).elim

/-- What is begun in a request is begun by the time of its signal. -/
theorem Unfolds.begunBy (h : Unfolds r q w t returned) (hw : w.clock.raised = false)
    (ht : SignalAt (r.readings (t.calls .issue) q) w.clock.signal? t u) : t.BegunBy u := by
  cases h with
  | direct _ ha => exact (Retrier.events_begunBy (ha _) hw ht).2
  | issuing _ ha => exact issue_begunBy (ha _) hw Trace.quiet_nil (List.append_nil _).symm ht
  | @failed β script first f _ ha h =>
      exact issue_begunBy (ha _) hw (quiet_advanced _ _ _) (opened_issue h _) ht
  | @polling β script polls first v _ ha h hv hp =>
      obtain ⟨-, hc⟩ := Retrier.run_course h
      rw [issue_calls_polling] at ht
      have hadvanced := quiet_advanced (q.operation .issue).action .issuing .polling
      cases hfirst : first.world.clock.raised with
      | true =>
          rw [List.append_assoc, List.append_assoc, List.append_assoc] at ht ⊢
          rw [← List.append_assoc] at ht ⊢
          refine issue_begunBy (ha _) hw ?_ (opened_issue h _) ht
          simp only [Trace.quiet_append]
          exact ⟨hadvanced, Retrier.quiet_events_of_raised hfirst, quiet_settling _ _⟩
      | false =>
          rw [signalAt_embed (not_raisesAt_issue hc (ha _) hfirst _ hadvanced)
            (quiet_settling _ _), ← (hc.unraised (ha 0) hfirst).1] at ht
          obtain ⟨hle, hpolls⟩ := Retrier.events_begunBy
            (hp.shift (Trace.calls_eq_zero (stage_ne_front hc _))) hfirst ht
          rw [Trace.begunBy_append, Trace.begunBy_append]
          exact ⟨⟨(begunBy_issue hc _ hadvanced).mono hle, hpolls⟩,
            (quiet_settling _ _).begunBy u⟩

/-! ## Requests -/

theorem Unfolds.quiet_of_raised (h : Unfolds r q w t returned) (hw : w.clock.raised = true) :
    t.Quiet := by
  cases h with
  | direct => exact Retrier.quiet_events_of_raised hw
  | issuing =>
      exact Trace.quiet_append.mpr ⟨quiet_opened _, Retrier.quiet_events_of_raised hw⟩
  | failed _ _ h =>
      rw [unpolled_trace, ← Retrier.events_of_run h]
      simp only [Trace.quiet_append]
      exact ⟨⟨quiet_opened _, Retrier.quiet_events_of_raised hw⟩, quiet_advanced _ _ _⟩
  | polling _ _ h hv =>
      obtain rfl := (Retrier.run_course h).2.of_raised hw
      cases hv

theorem perform_of_raised (q : Request α) (hb : (r.retrier q .issue).HoldsEnd w.clock.now)
    (hw : w.clock.raised = true) : ∃ run, r.perform q w = some run ∧ run.world = w ∧
      run.result = .error ⟨.cancelled, 0, 0⟩ := by
  have hissue {β : Type} (script : Nat → Reply (Except Setback β)) :
      (r.retrier q .issue).run script w = some ((r.retrier q .issue).withdrawn w.clock.now 0 w) :=
    Retrier.run_of_raised hb hw
  cases q with
  | read | write | delete =>
      exact ⟨_, hissue _, rfl, by rw [Retrier.withdrawn_result, Nat.sub_self]⟩
  | mutateThenPoll | deleteThenPoll =>
      refine ⟨_, twoPhase_eq_some.mpr ⟨_, hissue _, .inl ⟨_, rfl, rfl⟩⟩, rfl, ?_⟩
      rw [unpolled, Nat.sub_self]

/-- How a request heeds a signal that is raised before it, in one of its events, or not at all. It
returns where the signal is raised, or at the end of the call in flight, and begins nothing more. -/
structure SignalSpec (r : Reconciler σ) (q : Request α) (w : World σ)
    (replies : Replies (Except Setback Unit)) (events : Trace) : Prop where
  raised : w.clock.raised = true → events.Quiet ∧
    ((r.retrier q .issue).HoldsEnd w.clock.now → ∃ run, r.perform q w = some run ∧
      run.world = w ∧ run.result = .error ⟨.cancelled, 0, 0⟩)
  stopped : w.clock.raised = false → ∀ {before after : Trace} {e t finish flight},
    events = before ++ e :: after → SignalAt replies w.clock.signal? events t →
      RaisedIn replies w.clock.signal? before t e finish flight →
        after.Quiet ∧ (r.Timed q finish flight → ∃ run, r.perform q w = some run ∧
          run.world.clock.raised = true ∧ run.world.clock.now = finish ∧ CutShort r q run flight)
  begunBy : w.clock.raised = false → ∀ t, SignalAt replies w.clock.signal? events t →
    events.BegunBy t
  met : w.clock.raised = false → ∀ run, r.perform q w = some run →
    run.world.clock.raised = true → ∃ t, Met replies w.clock.signal? events t
  spared : w.clock.raised = false → ∀ run, r.perform q w = some run →
    run.world.clock.raised = false → ∀ t, SignalAt replies w.clock.signal? events t →
      run.world.clock.now ≤ t

/-- Every request heeds its signal. -/
theorem perform_signal (r : Reconciler σ) (q : Request α) (w : World σ) :
    SignalSpec r q w (r.readings ((r.events q w).calls .issue) q) (r.events q w) where
  raised hw := ⟨(unfolds r q w).quiet_of_raised hw, fun hb => perform_of_raised q hb hw⟩
  stopped hw _ _ _ _ _ _ htrace ht he := (unfolds r q w).stops hw ht.toNotBefore htrace he
  begunBy hw _ ht := (unfolds r q w).begunBy hw ht
  met hw run hrun hend := by
    rw [events_of_perform hrun]
    exact (performed hrun).met hw hend
  spared _ run hrun hend t ht := by
    rw [events_of_perform hrun] at ht
    obtain ⟨hsignal, hraise⟩ := (performed hrun).of_unraised hend
    rcases ht.source with hdue | hcall
    · exact Clock.now_le_signal (hsignal.trans hdue)
    · exact (hraise t hcall).elim

def unhurried : Reconciler Nat where
  gate := .ofList [0, 5]
  policies := .uniform ⟨.seconds 1, .millis 100, .millis 400, 2, false⟩

/-- A change that is accepted at the second attempt. -/
def renameDisk : Request Unit :=
  .mutateThenPoll ⟨"RenameDisk", true⟩
    (fun n => if n = 0 then { answer := .error ⟨"ResourceBusy", "busy", none⟩, took := 3 }
      else { answer := .ok (), took := .millis 20 })
    ⟨"GetDisk", true⟩ fun _ _ => { answer := .ok (.ready ()) }

/-- The signal comes while the change is being accepted. -/
theorem perform_signal_renameDisk : ∃ run,
    unhurried.perform renameDisk ⟨{ due := some (.millis 110) }, 0⟩ = some run ∧
      run.world.clock = ⟨.millis 120 + 8, true, some (.millis 110)⟩ ∧
      SignalSpec unhurried renameDisk ⟨{ due := some (.millis 110) }, 0⟩
        (unhurried.readings (run.trace.calls .issue) renameDisk) run.trace := by
  have h : (unhurried.perform renameDisk ⟨{ due := some (.millis 110) }, 0⟩).map
      (·.world.clock) = some ⟨.millis 120 + 8, true, some (.millis 110)⟩ := by
    decide +kernel
  obtain ⟨run, hrun, hclock⟩ := Option.map_eq_some_iff.mp h
  have hsignal := perform_signal unhurried renameDisk ⟨{ due := some (.millis 110) }, 0⟩
  rw [events_of_perform hrun] at hsignal
  exact ⟨run, hrun, hclock, hsignal⟩

end Settle.Reconciler
