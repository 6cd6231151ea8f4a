import Settle.Proofs.Retrier.Calls

/-! # The turns that a run takes

Every call has a turn of its own, which is booked right before it. Turns are booked as a run begins
and as a delay ends, so none is booked when the signal has come. One that is booked is given up only
if the signal comes while the run waits for it, and that ends the run. -/

namespace Settle

theorem Event.booked?_eq_none {e : Event} (h : e.start? = none) : e.booked? = none := by
  cases e with
  | reserved => cases h
  | _ => rfl

theorem Run.trace_after_eq {σ α : Type} {run : Run σ α} {before rest : Trace} (events : Trace)
    (h : run.trace = before ++ rest) : (run.after events).trace = events ++ before ++ rest := by
  rw [trace_after, h, List.append_assoc]

namespace Trace

variable {t : Trace}

/-- The last turn is not used: nothing begins after it is booked. -/
def EndsBooked (t : Trace) : Prop :=
  ∃ before stage action booked wait announced after,
    t = before ++ .reserved stage action booked wait announced :: after ∧ Quiet after

theorem Quiet.not_endsBooked (h : t.Quiet) : ¬ t.EndsBooked := by
  rintro ⟨before, stage, action, booked, wait, announced, after, rfl, -⟩
  have hstart := h (.reserved stage action booked wait announced) (by simp)
  cases hstart

@[simp] theorem reservations_append (s t : Trace) :
    (s ++ t).reservations = s.reservations ++ t.reservations := List.filterMap_append

theorem Quiet.reservations_eq_nil (h : t.Quiet) : t.reservations = [] := by
  refine List.filterMap_eq_nil_iff.mpr fun e he => ?_
  have hstart := h e he
  cases e with
  | reserved => cases hstart
  | _ => rfl

end Trace

namespace Retrier

variable {σ α : Type}

/-- When a turn is booked after these events: as the run starts, or as the delay ends that follows
the last call. -/
inductive Due (r : Retrier σ) (script : Nat → Reply (Except Setback α)) (made : Nat)
    (start : Nanos) (before : Trace) (booked : Nanos) : Prop where
  | first (hbefore : before = []) (hbooked : booked = start)
  | later {earlier : Trace} {called n failed delay cause}
      (hbefore : before =
        earlier ++ [.called r.stage called, .retrying r.action n failed delay cause])
      (hfailed : failed = called + (script (made + earlier.calls r.stage)).took)
      (hbooked : booked = failed + delay)

/-- A turn that is booked after these events is due, and the signal has not come by then: it was not
raised, falls due later unless the turn is the first one, and was left alone by all calls so far. -/
structure Booked (r : Retrier σ) (script : Nat → Reply (Except Setback α)) (made : Nat)
    (w : World σ) (before : Trace) (booked : Nanos) : Prop where
  due : r.Due script made w.clock.now before booked
  raised_eq : w.clock.raised = false
  before_signal : ∀ u, w.clock.signal? = some u → before = [] ∨ booked < u
  unraised : ∀ n < before.calls r.stage, (script (made + n)).interrupts = false

/-- The events from the attempt after `made` others on, as far as attempts are counted. -/
inductive Turns (r : Retrier σ) (script : Nat → Reply (Except Setback α)) :
    Nat → World σ → Trace → Prop where
  | uncounted {made w} : Turns r script made w []
  | withdrawn {made w} (hw : w.clock.raised = true) :
      Turns r script made w [.cancelled r.action made]
  | interrupted {made w} (hw : w.clock.raised = false)
      (ht : (r.takeTurn w).clock.raised = true) :
      Turns r script made w [r.booking w, .cancelled r.action made]
  | ended {made w x} (hw : w.clock.raised = false) (ht : (r.takeTurn w).clock.raised = false)
      (hx : x.start? = none) : Turns r script made w (r.opening w ++ [x])
  | again {made w delay cause rest} (hw : w.clock.raised = false)
      (ht : (r.takeTurn w).clock.raised = false)
      (hrest : Turns r script (made + 1) (r.afterBackoff script made delay w) rest) :
      Turns r script made w (r.opening w ++
        .retrying r.action (made + 1) (r.afterCall script made w).clock.now delay cause :: rest)

variable {r : Retrier σ} {script : Nat → Reply (Except Setback α)} {start : Nanos}
  {made fuel : Nat} {w : World σ} {run : Run σ α} {t before after : Trace} {x : Event}
  {stage : Stage} {action : String} {booked wait : Nanos} {announced : Bool}

/-! ## Runs take turns -/

theorem Course.turns (h : Course r script start made w run) : Turns r script made w run.trace := by
  induction h with
  | withdrawn hw => exact .withdrawn hw
  | interrupted hw ht => exact .interrupted hw ht
  | succeeded hw ht | refused hw ht | exhausted hw ht => exact .ended hw ht rfl
  | retried hw ht _ _ _ ih =>
      rw [Run.trace_after, List.append_assoc]
      exact .again hw ht ih

theorem Endless.turns (h : Endless r script start fuel made w t) : Turns r script made w t := by
  induction h with
  | counted => exact .uncounted
  | again hw ht _ _ _ ih => exact .again hw ht ih

theorem turns_events (r : Retrier σ) (script : Nat → Reply (Except Setback α)) (w : World σ) :
    Turns r script 0 w (r.events script w) := by
  rcases events_cases r script w with ⟨run, -, hc, hevents⟩ | ⟨-, hendless | hevents⟩
  · rw [hevents]
    exact hc.turns
  · exact hendless.turns
  · rw [hevents]
    exact .uncounted

/-! ## Bookings -/

theorem signal_afterBackoff {delay : Nanos} (ht : (r.takeTurn w).clock.raised = false)
    (h : (r.afterBackoff script made delay w).clock.raised = false) :
    (r.afterBackoff script made delay w).clock.signal? = w.clock.signal? ∧
      (script made).interrupts = false := by
  obtain ⟨hcall, -, hwait⟩ := Clock.wait_unraised h
  obtain ⟨-, hi, hsignal⟩ := Reply.finish_unraised hcall
  refine ⟨?_, hi⟩
  calc (r.afterBackoff script made delay w).clock.signal?
      = (r.afterCall script made w).clock.signal? := hwait
    _ = (r.takeTurn w).clock.signal? := hsignal
    _ = w.clock.signal? := takeTurn_unraised ht

theorem booked_first (r : Retrier σ) (script : Nat → Reply (Except Setback α)) (made : Nat)
    (hw : w.clock.raised = false) : r.Booked script made w [] w.clock.now where
  due := .first rfl rfl
  raised_eq := hw
  before_signal _ _ := .inl rfl
  unraised := nofun

theorem Booked.later {delay : Nanos} {cause : Cause}
    (h : r.Booked script (made + 1) (r.afterBackoff script made delay w) before booked)
    (hw : w.clock.raised = false) (ht : (r.takeTurn w).clock.raised = false) :
    r.Booked script made w (r.opening w ++ .retrying r.action (made + 1)
      (r.afterCall script made w).clock.now delay cause :: before) booked := by
  obtain ⟨-, hnow, -⟩ := Clock.wait_unraised h.raised_eq
  obtain ⟨hsignal, hi⟩ := signal_afterBackoff ht h.raised_eq
  refine
    { due := ?_
      raised_eq := hw
      before_signal := fun u hu => .inr ?_
      unraised := fun n hn => ?_ }
  · rcases h.due with ⟨rfl, hbooked⟩ | ⟨rfl, hfailed, hbooked⟩
    · exact .later (opening_append r w _) afterCall_now (hbooked.trans hnow)
    · refine .later (List.append_assoc _ (_ :: _) _).symm ?_ hbooked
      rw [hfailed, calls_attempt rfl, Nat.add_assoc]
  · have hsame := hsignal.trans hu
    rcases h.before_signal u hsame with rfl | hlt
    · rcases h.due with ⟨-, rfl⟩ | ⟨hbefore, -, -⟩
      · exact Clock.now_lt_signal h.raised_eq hsame
      · simp at hbefore
    · exact hlt
  · rw [calls_attempt rfl] at hn
    cases n with
    | zero => exact hi
    | succ n =>
        have hlater := h.unraised n (by omega)
        rwa [Nat.add_assoc, Nat.add_comm 1 n] at hlater

theorem split_turn {e : Event} {u : Nanos} (hx : x.start? = none) (he : e.start? = some u)
    (h : [r.booking w, x] = before ++ e :: after) : before = [] ∧ e = r.booking w := by
  rcases List.cons_eq_append_iff.mp h with ⟨rfl, hfirst⟩ | ⟨mid, rfl, hlast⟩
  · exact ⟨rfl, (List.cons.inj hfirst).1⟩
  · have hmem : e ∈ [x] := by simp [hlast]
    rw [List.mem_singleton.mp hmem, hx] at he
    cases he

theorem Turns.booked_at (h : Turns r script made w t)
    (htrace : t = before ++ .reserved stage action booked wait announced :: after) :
    stage = r.stage ∧ action = r.action ∧ r.Booked script made w before booked := by
  have hown {w : World σ} (he : Event.reserved stage action booked wait announced = r.booking w) :
      stage = r.stage ∧ action = r.action ∧ booked = w.clock.now := by
    obtain ⟨hstage, haction, htime, -⟩ := Event.reserved.inj he
    exact ⟨hstage, haction, htime⟩
  induction h generalizing before with
  | uncounted => simp at htrace
  | withdrawn =>
      have hsplit := List.singleton_eq_append_iff.mp htrace
      simp at hsplit
  | interrupted hw =>
      obtain ⟨rfl, he⟩ := split_turn rfl rfl htrace
      obtain ⟨hstage, haction, rfl⟩ := hown he
      exact ⟨hstage, haction, booked_first r script _ hw⟩
  | ended hw _ hx =>
      rcases split_attempt hx rfl htrace with ⟨rfl, he, -⟩ | ⟨-, he, -⟩ | ⟨mid, -, hrest⟩
      · obtain ⟨hstage, haction, rfl⟩ := hown he
        exact ⟨hstage, haction, booked_first r script _ hw⟩
      · cases he
      · simp at hrest
  | again hw ht _ ih =>
      rcases split_attempt rfl rfl htrace with ⟨rfl, he, -⟩ | ⟨-, he, -⟩ | ⟨mid, rfl, hrest⟩
      · obtain ⟨hstage, haction, rfl⟩ := hown he
        exact ⟨hstage, haction, booked_first r script _ hw⟩
      · cases he
      · obtain ⟨hstage, haction, hlater⟩ := ih hrest
        exact ⟨hstage, haction, hlater.later hw ht⟩

theorem Turns.called_at (h : Turns r script made w t) {called : Nanos}
    (htrace : t = before ++ .called stage called :: after) :
    stage = r.stage ∧ ∃ earlier booked wait announced,
      before = earlier ++ [.reserved r.stage r.action booked wait announced] ∧
        called = booked + wait := by
  have hown {w : World σ} (ht : (r.takeTurn w).clock.raised = false)
      (he : Event.called stage called = .called r.stage (r.takeTurn w).clock.now) :
      stage = r.stage ∧ called = w.clock.now + r.turnWait w := by
    obtain ⟨hstage, hcalled⟩ := Event.called.inj he
    exact ⟨hstage, hcalled.trans (takeTurn_now_eq ht)⟩
  induction h generalizing before with
  | uncounted => simp at htrace
  | withdrawn =>
      have hsplit := List.singleton_eq_append_iff.mp htrace
      simp at hsplit
  | interrupted =>
      obtain ⟨-, he⟩ := split_turn rfl rfl htrace
      cases he
  | ended _ ht hx =>
      rcases split_attempt hx rfl htrace with ⟨-, he, -⟩ | ⟨rfl, he, -⟩ | ⟨mid, -, hrest⟩
      · cases he
      · obtain ⟨hstage, hcalled⟩ := hown ht he
        exact ⟨hstage, [], _, _, _, rfl, hcalled⟩
      · simp at hrest
  | again _ ht _ ih =>
      rcases split_attempt rfl rfl htrace with ⟨-, he, -⟩ | ⟨rfl, he, -⟩ | ⟨mid, rfl, hrest⟩
      · cases he
      · obtain ⟨hstage, hcalled⟩ := hown ht he
        exact ⟨hstage, [], _, _, _, rfl, hcalled⟩
      · obtain ⟨hstage, earlier, booked, wait, announced, rfl, hcalled⟩ := ih hrest
        exact ⟨hstage, _, booked, wait, announced, (List.append_assoc _ (_ :: earlier) _).symm,
          hcalled⟩

theorem Turns.served (h : Turns r script made w t) : ∃ last, r.gate.Serves w.gate t last := by
  induction h with
  | uncounted | withdrawn => exact ⟨_, rfl⟩
  | interrupted => exact ⟨_, rfl, rfl⟩
  | ended _ _ hx =>
      refine ⟨_, (serves_opening r _).mpr (Gate.serves_of_unbooked fun e he => ?_)⟩
      rw [List.mem_singleton.mp he]
      exact Event.booked?_eq_none hx
  | again _ _ _ ih =>
      obtain ⟨last, hlast⟩ := ih
      exact ⟨last, (serves_opening r _).mpr hlast⟩

/-! ## As many turns as calls -/

theorem reservations_attempt {rest : Trace} (hx : x.start? = none) :
    (Trace.reservations (r.opening w ++ x :: rest)).length = 1 + rest.reservations.length := by
  have hquiet : Trace.reservations [x] = [] := Trace.Quiet.reservations_eq_nil (by simpa using hx)
  have hsplit : r.opening w ++ x :: rest = r.opening w ++ [x] ++ rest := by simp
  rw [hsplit, Trace.reservations_append, Trace.reservations_append, hquiet, List.append_nil,
    List.length_append]
  rfl

theorem endsBooked_attempt {rest : Trace} (hx : x.start? = none) :
    Trace.EndsBooked (r.opening w ++ x :: rest) ↔ rest.EndsBooked := by
  constructor
  · rintro ⟨before, stage, action, booked, wait, announced, after, htrace, hafter⟩
    rcases split_booking hx htrace with ⟨-, -, rfl⟩ | ⟨mid, -, hrest⟩
    · have hcalled := hafter (.called r.stage (r.takeTurn w).clock.now) (by simp)
      cases hcalled
    · exact ⟨mid, stage, action, booked, wait, announced, after, hrest, hafter⟩
  · rintro ⟨before, stage, action, booked, wait, announced, after, rfl, hafter⟩
    exact ⟨r.opening w ++ x :: before, stage, action, booked, wait, announced, after, by simp,
      hafter⟩

/-- There are as many turns as calls, and one more if the last one is not used. -/
theorem Turns.reservations (h : Turns r script made w t) :
    t.reservations.length = t.calls r.stage ∧ ¬ t.EndsBooked ∨
      t.reservations.length = t.calls r.stage + 1 ∧ t.EndsBooked := by
  induction h with
  | uncounted => exact .inl ⟨rfl, Trace.quiet_nil.not_endsBooked⟩
  | withdrawn => exact .inl ⟨rfl, Trace.Quiet.not_endsBooked (by simp [Event.start?])⟩
  | interrupted =>
      exact .inr ⟨rfl, [], _, _, _, _, _, _, rfl, by simp [Event.start?]⟩
  | ended _ _ hx =>
      rw [reservations_attempt hx, calls_attempt hx, endsBooked_attempt hx]
      exact .inl ⟨rfl, Trace.quiet_nil.not_endsBooked⟩
  | again _ _ _ ih =>
      rw [reservations_attempt rfl, calls_attempt rfl, endsBooked_attempt rfl, Nat.add_assoc,
        Nat.add_right_inj, Nat.add_right_inj]
      exact ih

theorem Endless.not_endsBooked (h : Endless r script start fuel made w t) : ¬ t.EndsBooked := by
  induction h with
  | counted => exact Trace.quiet_nil.not_endsBooked
  | again _ _ _ _ _ ih => rwa [endsBooked_attempt rfl]

theorem not_endsBooked_events (h : r.run script w = none) : ¬ (r.events script w).EndsBooked := by
  rcases events_cases r script w with ⟨run, hrun, -, -⟩ | ⟨-, hendless | hevents⟩
  · rw [hrun] at h
    cases h
  · exact hendless.not_endsBooked
  · rw [hevents]
    exact Trace.quiet_nil.not_endsBooked

/-! ## Ends of runs -/

/-- The signal comes while the run waits for a turn, which ends the run there. -/
inductive CutInTurn (w : World σ) (run : Run σ α) : Prop where
  | intro {before after : Trace} {stage action booked wait announced}
      (htrace : run.trace = before ++ .reserved stage action booked wait announced :: after)
      (hafter : after.Quiet) (hverdict : run.verdict = .error .cancelled)
      (hsignal : w.clock.signal? = some run.world.clock.now)
      (hbooked : booked ≤ run.world.clock.now) (hwait : 0 < wait)
      (hfinish : run.world.clock.now ≤ booked + wait) : CutInTurn w run

theorem CutInTurn.endsBooked (h : CutInTurn w run) : run.trace.EndsBooked := by
  obtain ⟨htrace, hafter, -, -, -, -, -⟩ := h
  exact ⟨_, _, _, _, _, _, _, htrace, hafter⟩

/-- A turn that is not used was cut short by the signal. -/
theorem Course.cutInTurn (h : Course r script start made w run) (hend : run.trace.EndsBooked) :
    CutInTurn w run := by
  induction h with
  | withdrawn => exact (Trace.Quiet.not_endsBooked (by simp [Event.start?]) hend).elim
  | @interrupted made w hw ht =>
      have hwait : r.turnWait w ≠ 0 := by
        intro hzero
        simp only [takeTurn, hzero, if_true, hw] at ht
        cases ht
      exact .intro (List.nil_append _).symm (by simp [Event.start?]) rfl (takeTurn_raised hw ht)
        (now_le_takeTurn r w) (Nat.pos_of_ne_zero hwait) (takeTurn_now_le r w)
  | succeeded | refused | exhausted =>
      rw [endsBooked_attempt rfl] at hend
      exact (Trace.quiet_nil.not_endsBooked hend).elim
  | @retried made w cause delay run hw ht _ _ rest ih =>
      rw [Run.trace_after, List.append_assoc] at hend
      have hcut := ih ((endsBooked_attempt rfl).mp hend)
      have hnext : (r.afterBackoff script made delay w).clock.raised = false := by
        cases hraised : (r.afterBackoff script made delay w).clock.raised with
        | false => rfl
        | true =>
            have hlast := hcut.endsBooked
            rw [rest.of_raised hraised] at hlast
            exact (Trace.Quiet.not_endsBooked (by simp [Event.start?]) hlast).elim
      obtain ⟨htrace, hafter, hverdict, hsignal, hbooked, hwait, hfinish⟩ := hcut
      rw [(signal_afterBackoff ht hnext).1] at hsignal
      exact .intro (Run.trace_after_eq _ htrace) hafter hverdict hsignal hbooked hwait hfinish

/-- The turns that a run from `w` books: when and where, one for each call and right before it, and
none once the run is over or the signal has come. -/
structure TurnSpec (r : Retrier σ) (script : Nat → Reply (Except Setback α)) (w : World σ) :
    Prop where
  booked : ∀ {before after : Trace} {stage action booked wait announced},
    r.events script w = before ++ .reserved stage action booked wait announced :: after →
      stage = r.stage ∧ action = r.action ∧ r.Booked script 0 w before booked
  called : ∀ {before after : Trace} {stage called},
    r.events script w = before ++ .called stage called :: after →
      stage = r.stage ∧ ∃ earlier booked wait announced,
        before = earlier ++ [.reserved r.stage r.action booked wait announced] ∧
          called = booked + wait
  served : ∃ last, r.gate.Serves w.gate (r.events script w) last
  unfinished : r.run script w = none →
    (r.events script w).reservations.length = (r.events script w).calls r.stage
  finished : ∀ {run}, r.run script w = some run → r.events script w = run.trace ∧
    r.gate.Serves w.gate run.trace run.world.gate ∧
    (run.trace.reservations.length = run.trace.calls r.stage ∧ ¬ CutInTurn w run ∨
      run.trace.reservations.length = run.trace.calls r.stage + 1 ∧ CutInTurn w run)
  ended : ∀ {run}, r.run script w = some run → run.verdict ≠ .error .cancelled →
    ∃ (before : Trace) (called : Nanos) (x : Event),
      run.trace = before ++ [.called r.stage called, x] ∧ x.start? = none ∧
        run.world.clock.now = called + (script (before.calls r.stage)).took

/-- Calls and turns come in pairs, and only the signal parts a pair. -/
theorem run_turns (r : Retrier σ) (script : Nat → Reply (Except Setback α)) (w : World σ) :
    r.TurnSpec script w := by
  have hturns := turns_events r script w
  refine
    { booked := hturns.booked_at
      called := hturns.called_at
      served := hturns.served
      unfinished := fun hnone => ?_
      finished := fun {run} hrun => ?_
      ended := fun {run} hrun hv => ?_ }
  · have hused := not_endsBooked_events hnone
    exact (hturns.reservations.resolve_right fun hlast => hused hlast.2).1
  · have hc := (run_course hrun).2
    have hcut : CutInTurn w run ↔ run.trace.EndsBooked :=
      ⟨CutInTurn.endsBooked, hc.cutInTurn⟩
    rw [hcut]
    exact ⟨events_of_run hrun, hc.serves, hc.turns.reservations⟩
  · obtain ⟨before, called, x, htrace, hx, hnow⟩ := (run_course hrun).2.ended_at hv
    rw [Nat.zero_add] at hnow
    exact ⟨before, called, x, htrace, hx, hnow⟩

/-- The signal comes in the wait for the first turn. -/
example : (slowStart.run pendingThenMissing ⟨{ due := some 3 }, 0⟩).map
    (fun run => (run.trace.reservations, run.trace.calls .issue)) =
      some ([("GetDisk", 5)], 0) := by decide +kernel

end Retrier

end Settle
