import Settle.Proofs.Retrier.Budget
import Settle.Proofs.Signal

/-! # How a signal ends the retry loop

A signal that comes in a wait ends the loop there. One that comes during a call lets the call
finish, and its answer may still end the loop by itself. -/

namespace Settle

/-- The reply without the value of a success, which is all that the loop looks at. -/
def Reply.bare {ε α : Type} (reply : Reply (Except ε α)) : Reply (Except ε Unit) :=
  reply.map (Except.map fun _ => ())

namespace Reply

variable {ε α : Type} {reply : Reply (Except ε α)}

theorem bare_ok {v : α} (h : reply.answer = .ok v) : reply.bare.answer = .ok () := by
  simp [bare, map, h, Except.map]

theorem bare_error {e : ε} (h : reply.answer = .error e) : reply.bare.answer = .error e := by
  simp [bare, map, h, Except.map]

theorem of_bare_error {e : ε} (h : reply.bare.answer = .error e) : reply.answer = .error e := by
  cases ha : reply.answer with
  | ok v => simp [bare, map, ha, Except.map] at h
  | error d => simpa [bare, map, ha, Except.map] using h

end Reply

namespace Retrier

variable {σ α : Type} {r : Retrier σ} {script : Nat → Reply (Except Setback α)}
  {start : Nanos} {made : Nat} {w : World σ} {run : Run σ α}
  {replies : Replies (Except Setback Unit)} {post before after : Trace} {e : Event}
  {finish t u : Nanos} {flight : Option (Stage × Reply (Except Setback Unit))}

/-! ## Turns -/

theorem takeTurn_unraised (h : (r.takeTurn w).clock.raised = false) :
    (r.takeTurn w).clock.signal? = w.clock.signal? := by
  unfold takeTurn at h ⊢
  split
  · rfl
  · next hwait =>
      rw [if_neg hwait] at h
      exact (Clock.wait_unraised h).2.2

theorem takeTurn_raised (hw : w.clock.raised = false)
    (h : (r.takeTurn w).clock.raised = true) :
    w.clock.signal? = some (r.takeTurn w).clock.now := by
  unfold takeTurn at h ⊢
  split
  · next hwait => simp [hwait, hw] at h
  · next hwait =>
      rw [if_neg hwait] at h
      exact Clock.wait_raised hw h

theorem takeTurn_of_zero (h : r.turnWait w = 0) : (r.takeTurn w).clock = w.clock := if_pos h

theorem takeTurn_of_signal (hw : w.clock.raised = false) (hwait : r.turnWait w ≠ 0)
    (ht : w.clock.signal? = some t) (hle : t ≤ w.clock.now + r.turnWait w) :
    (r.takeTurn w).clock.raised = true ∧ (r.takeTurn w).clock.now = t := by
  have hclock : (r.takeTurn w).clock = w.clock.wait (r.turnWait w) := if_neg hwait
  rw [hclock]
  exact Clock.wait_of_signal hw ht hle

/-! ## Calls -/

/-- The calls after `made` others are answered by the script. -/
def Answers (r : Retrier σ) (script : Nat → Reply (Except Setback α)) (made : Nat)
    (replies : Replies (Except Setback Unit)) : Prop :=
  ∀ n, replies r.stage n = some (script (made + n)).bare

theorem Answers.of_zero (h : ∀ n, replies r.stage n = some (script n).bare) :
    r.Answers script 0 replies := by
  intro n
  rw [Nat.zero_add, h]

theorem Answers.shift (h : r.Answers script made replies) {events : Trace}
    (hc : events.calls r.stage = 0) : r.Answers script made (events.shift replies) := by
  intro n
  rw [Trace.shift, hc, Nat.zero_add, h]

theorem Answers.after_attempt (h : r.Answers script made replies) (w : World σ)
    (hpost : post.Quiet) :
    r.Answers script (made + 1) (Trace.shift (r.opening w ++ post) replies) := by
  intro n
  rw [Trace.shift, Trace.calls_append, calls_opening, hpost.calls_eq_zero, Nat.add_zero, h,
    Nat.add_assoc]

theorem opening_append (r : Retrier σ) (w : World σ) (post : Trace) :
    r.opening w ++ post =
      [r.booking w] ++ .called r.stage (r.takeTurn w).clock.now :: post := rfl

theorem raisesAt_opening (h : r.Answers script made replies) (hpost : post.Quiet) :
    Trace.RaisesAt replies (r.opening w ++ post) u ↔
      (script made).interrupts = true ∧
        u = (r.takeTurn w).clock.now + (script made).took := by
  constructor
  · intro hu
    rw [Trace.raisesAt_append, or_iff_left hpost.not_raisesAt] at hu
    obtain @⟨before, after, stage, called, reply, htrace, hreply, hi⟩ := hu
    rcases Trace.split_pair htrace with ⟨-, he, -⟩ | ⟨rfl, he, -⟩
    · cases he
    · obtain ⟨rfl, rfl⟩ := Event.called.inj he
      rw [calls_booking, h] at hreply
      obtain rfl := Option.some.inj hreply
      exact ⟨hi, rfl⟩
  · rintro ⟨hi, rfl⟩
    exact .intro (opening_append r w post) (h 0) hi

theorem begunBy_turn (hpost : post.Quiet) :
    Trace.BegunBy (r.opening w ++ post) (r.takeTurn w).clock.now := by
  rw [opening_append, List.cons_append, List.nil_append, Trace.begunBy_cons,
    Trace.begunBy_cons]
  refine ⟨?_, ?_, hpost.begunBy _⟩
  · rintro v ⟨⟩
    exact now_le_takeTurn r w
  · rintro v ⟨⟩
    exact Nat.le_refl _

theorem begunBy_call (hpost : post.Quiet) :
    Trace.BegunBy (r.opening w ++ post) (r.afterCall script made w).clock.now := by
  rw [afterCall_now]
  exact (begunBy_turn hpost).mono (Nat.le_add_right _ _)

theorem begunBy_backoff (hpost : post.Quiet) (delay : Nanos) :
    Trace.BegunBy (r.opening w ++ post) (r.afterBackoff script made delay w).clock.now :=
  (begunBy_call hpost).mono (Clock.now_le_wait _ delay)

theorem call_unraised (ha : r.Answers script made replies)
    (h : (r.afterCall script made w).clock.raised = false) :
    (r.afterCall script made w).clock.signal? = w.clock.signal? ∧
      ∀ {post : Trace}, post.Quiet → ∀ u, ¬ Trace.RaisesAt replies (r.opening w ++ post) u := by
  obtain ⟨hturn, hi, hsignal⟩ := Reply.finish_unraised h
  refine ⟨hsignal.trans (takeTurn_unraised hturn), fun hpost u hu => ?_⟩
  rw [raisesAt_opening ha hpost, hi] at hu
  cases hu.1

theorem quiet_retrying {action : String} {n : Nat} {t delay : Nanos} {cause : Cause} :
    Trace.Quiet [.retrying action n t delay cause] := by simp [Event.start?]

theorem backoff_unraised (ha : r.Answers script made replies) {delay : Nanos}
    (h : (r.afterBackoff script made delay w).clock.raised = false) :
    (r.afterBackoff script made delay w).clock.signal? = w.clock.signal? ∧
      ∀ {post : Trace}, post.Quiet → ∀ u, ¬ Trace.RaisesAt replies (r.opening w ++ post) u := by
  obtain ⟨hcall, -, hwait⟩ := Clock.wait_unraised h
  obtain ⟨hattempt, hraise⟩ := call_unraised ha hcall
  exact ⟨hwait.trans hattempt, hraise⟩

/-- A call during which the signal is raised meets it, if nothing begins after the call. -/
theorem call_met (ha : r.Answers script made replies) (ht : (r.takeTurn w).clock.raised = false)
    (h : (r.afterCall script made w).clock.raised = true) :
    ∃ t, w.clock.now ≤ t ∧ ∀ {post : Trace}, post.Quiet →
      Met replies w.clock.signal? (r.opening w ++ post) t := by
  obtain ⟨t, hcalled, hover, hdue, hsource⟩ := Reply.finish_raised ht h
  rw [takeTurn_unraised ht] at hdue hsource
  refine ⟨t, Nat.le_trans (now_le_takeTurn r w) hcalled, fun {post} hpost => ?_⟩
  refine
    { signal := ⟨⟨hdue, ?_⟩, ?_⟩
      found := ⟨_, _, _, _, _, opening_append r w post, .call (ha 0) hcalled hover hsource⟩
      begunBy := (begunBy_turn hpost).mono hcalled }
  · intro u hu
    rw [raisesAt_opening ha hpost] at hu
    rwa [hu.2]
  · rw [raisesAt_opening ha hpost]
    exact hsource.imp_left And.left

theorem turn_met (hw : w.clock.raised = false) (ht : (r.takeTurn w).clock.raised = true)
    (hpost : post.Quiet) :
    Met replies w.clock.signal? (r.booking w :: post) (r.takeTurn w).clock.now := by
  have hsignal := takeTurn_raised hw ht
  have hwait : r.turnWait w ≠ 0 := by
    intro hzero
    rw [takeTurn_of_zero hzero, hw] at ht
    cases ht
  have hcalls (stage : Stage) : Trace.calls (r.booking w :: post) stage = 0 := by
    simp [Trace.calls_cons, booking, Event.isCall, hpost.calls_eq_zero]
  refine
    { signal := ⟨⟨?_, fun u hu => (Trace.not_raisesAt hcalls hu).elim⟩, .inl hsignal⟩
      found := ⟨_, _, _, _, _, (List.nil_append _).symm,
        .turn hsignal hwait (now_le_takeTurn r w) (takeTurn_now_le r w)⟩
      begunBy := Trace.begunBy_cons.mpr ⟨?_, hpost.begunBy _⟩ }
  · intro u hu
    exact Nat.le_of_eq (Option.some.inj (hsignal.symm.trans hu))
  · rintro v ⟨⟩
    exact now_le_takeTurn r w

theorem backoff_met (ha : r.Answers script made replies)
    (hcall : (r.afterCall script made w).clock.raised = false) {n : Nat} {delay : Nanos}
    {cause : Cause} (h : (r.afterBackoff script made delay w).clock.raised = true)
    (hpost : post.Quiet) :
    Met replies w.clock.signal?
      (r.opening w ++
        .retrying r.action n (r.afterCall script made w).clock.now delay cause :: post)
      (r.afterBackoff script made delay w).clock.now := by
  obtain ⟨hattempt, hraise⟩ := call_unraised ha hcall
  have hsignal := hattempt.symm.trans (Clock.wait_raised hcall h)
  have hquiet : Trace.Quiet
      (.retrying r.action n (r.afterCall script made w).clock.now delay cause :: post) :=
    Trace.quiet_cons.mpr ⟨rfl, hpost⟩
  refine
    { signal := ⟨⟨?_, fun u hu => (hraise hquiet u hu).elim⟩, .inl hsignal⟩
      found := ⟨_, _, _, _, _, rfl,
        .backoff hsignal (Clock.now_le_wait _ delay) (Clock.wait_now_le _ _)⟩
      begunBy := begunBy_backoff hquiet delay }
  intro u hu
  exact Nat.le_of_eq (Option.some.inj (hsignal.symm.trans hu))

/-! ## What the signal stops -/

theorem turn_stops (hw : w.clock.raised = false)
    (he : RaisedIn replies w.clock.signal? [] t (r.booking w) finish flight) :
    (r.takeTurn w).clock.raised = true ∧ (r.takeTurn w).clock.now = finish ∧ flight = none := by
  cases he with
  | turn hdue hwait _ ht =>
      obtain ⟨hraised, hnow⟩ := takeTurn_of_signal hw hwait hdue ht
      exact ⟨hraised, hnow, rfl⟩

theorem call_stops (ha : r.Answers script made replies) (ht : (r.takeTurn w).clock.raised = false)
    (he : RaisedIn replies w.clock.signal? [r.booking w] t
      (.called r.stage (r.takeTurn w).clock.now) finish flight) :
    (r.afterCall script made w).clock.raised = true ∧
      (r.afterCall script made w).clock.now = finish ∧
      flight = some (r.stage, (script made).bare) := by
  cases he with
  | call hreply _ hover hsource =>
      rw [calls_booking, ha] at hreply
      obtain rfl := Option.some.inj hreply
      refine ⟨?_, afterCall_now, rfl⟩
      rcases hsource with ⟨hdue, htook⟩ | ⟨hi, -⟩
      · exact Reply.finish_of_signal ((takeTurn_unraised ht).trans hdue) htook hover
      · exact Reply.finish_of_interrupts hi

theorem backoff_stops (ha : r.Answers script made replies)
    (ht : (r.takeTurn w).clock.raised = false) {n : Nat} {delay : Nanos} {cause : Cause}
    (hpost : post.Quiet)
    (hraise : ∀ u, Trace.RaisesAt replies (r.opening w ++ post) u → t ≤ u)
    (he : RaisedIn replies w.clock.signal? before t
      (.retrying r.action n (r.afterCall script made w).clock.now delay cause) finish flight) :
    (r.afterBackoff script made delay w).clock.raised = true ∧
      (r.afterBackoff script made delay w).clock.now = finish ∧ flight = none := by
  cases he with
  | backoff hdue hfailed hover =>
      rw [afterBackoff_clock]
      cases hcall : (r.afterCall script made w).clock.raised with
      | false =>
          obtain ⟨hraised, hnow⟩ :=
            Clock.wait_of_signal hcall ((call_unraised ha hcall).1.trans hdue) hover
          exact ⟨hraised, hnow, rfl⟩
      | true =>
          obtain ⟨v, -, hv, hle, hsource⟩ := Reply.finish_raised ht hcall
          rw [takeTurn_unraised ht] at hle hsource
          have hend : finish ≤ (r.afterCall script made w).clock.now := by
            rw [afterCall_now]
            rcases hsource with ⟨hsignal, -⟩ | ⟨hi, rfl⟩
            · obtain rfl := Option.some.inj (hdue.symm.trans hsignal)
              exact hv
            · exact hraise _ ((raisesAt_opening ha hpost).mpr ⟨hi, rfl⟩)
          rw [Clock.wait_of_raised hcall]
          exact ⟨hcall, Nat.le_antisymm hfailed hend, rfl⟩

/-- An attempt that is the last one is stopped by the signal only during its call. -/
theorem last_stops (ha : r.Answers script made replies) (hw : w.clock.raised = false)
    (ht : (r.takeTurn w).clock.raised = false) {x : Event}
    (hx : ∀ before, ¬ RaisedIn replies w.clock.signal? before t x finish flight)
    (htrace : r.opening w ++ [x] = before ++ e :: after)
    (he : RaisedIn replies w.clock.signal? before t e finish flight) :
    after = [x] ∧ (r.afterCall script made w).clock.raised = true ∧
      (r.afterCall script made w).clock.now = finish ∧
      flight = some (r.stage, (script made).bare) := by
  rcases split_events htrace with ⟨rfl, rfl, -⟩ | ⟨rfl, rfl, rfl⟩ | ⟨-, rfl, -⟩ | ⟨mid, -, hrest⟩
  · rw [(turn_stops hw he).1] at ht
    cases ht
  · exact ⟨rfl, call_stops ha ht he⟩
  · exact (hx before he).elim
  · simp at hrest

/-! ## Runs -/

/-- What its last answer, given at `now`, makes of a run whose signal is raised. -/
def closing (r : Retrier σ) (start now : Nanos) : Except Setback Unit → Except Reason Unit
  | .ok () => .ok ()
  | .error (.fatal cause) => .error cause.reason
  | .error (.retryable cause) =>
    if r.budgetEnd start ≤ now then .error (.timedOut cause) else .error .cancelled

theorem closing_eq_ok {now : Nanos} {answer : Except Setback Unit} :
    r.closing start now answer = .ok () ↔ answer = .ok () := by
  rcases answer with (cause | cause) | v
  · simp only [closing, reduceCtorEq, iff_false]
    split <;> exact nofun
  · simp [closing]
  · simp [closing]

/-- The verdict on a run whose signal was raised in a wait or during a call. -/
inductive CutShort (r : Retrier σ) (start now : Nanos) :
    Option (Stage × Reply (Except Setback Unit)) → Except Reason α → Prop where
  | waiting : CutShort r start now none (.error .cancelled)
  | answered {reply verdict}
      (h : verdict.map (fun _ => ()) = r.closing start now reply.answer) :
      CutShort r start now (some (r.stage, reply)) verdict

/-- A call that fails retryably as the signal is raised is followed by no wait. -/
theorem failure_stops {delay : Nanos} {cause : Cause} (ha : r.Answers script made replies)
    (ht : (r.takeTurn w).clock.raised = false)
    (hanswer : (script made).answer = .error (.retryable cause))
    (hn : r.next start (made + 1) (r.afterCall script made w).clock.now = .retryAfter delay)
    (he : RaisedIn replies w.clock.signal? [r.booking w] t
      (.called r.stage (r.takeTurn w).clock.now) finish flight) :
    (r.afterBackoff script made delay w).clock.raised = true ∧
      (r.afterBackoff script made delay w).clock.now = finish ∧
      CutShort r start finish flight (.error .cancelled : Except Reason α) := by
  obtain ⟨hraised, rfl, rfl⟩ := call_stops ha ht he
  rw [afterBackoff_clock, Clock.wait_of_raised hraised]
  refine ⟨hraised, rfl, .answered ?_⟩
  rw [Reply.bare_error hanswer]
  exact (if_neg (Int.not_le.mpr (next_retryAfter hn).1)).symm

theorem Course.of_raised (h : Course r script start made w run) (hw : w.clock.raised = true) :
    run = r.withdrawn start made w := by
  cases h with
  | withdrawn => rfl
  | interrupted hu | succeeded hu | refused hu | exhausted hu | retried hu =>
      rw [hu] at hw
      cases hw

theorem Course.begunBy (h : Course r script start made w run) :
    run.trace.BegunBy run.world.clock.now := by
  induction h with
  | withdrawn => exact Trace.Quiet.begunBy (by simp [Event.start?]) _
  | interrupted =>
      refine Trace.begunBy_cons.mpr ⟨?_, Trace.Quiet.begunBy (by simp [Event.start?]) _⟩
      rintro v ⟨⟩
      exact now_le_takeTurn r _
  | succeeded | refused | exhausted => exact begunBy_call (by simp [Event.start?])
  | retried _ _ _ _ rest ih =>
      exact Trace.begunBy_append.mpr
        ⟨(begunBy_backoff quiet_retrying _).mono rest.now_le, ih⟩

theorem run_of_raised (hb : r.HoldsEnd w.clock.now) (hw : w.clock.raised = true) :
    r.run script w = some (r.withdrawn w.clock.now 0 w) := by
  rw [run_eq_loop hb, loop_of_withdrawal (withdrawal?_of_raised hw)]

theorem Course.unraised_start (h : Course r script start made w run)
    (hend : run.world.clock.raised = false) : w.clock.raised = false := by
  cases hw : w.clock.raised with
  | false => rfl
  | true =>
      rw [h.of_raised hw, withdrawn_world, hw] at hend
      cases hend

/-- A run that ends without the signal leaves it alone. -/
theorem Course.unraised (h : Course r script start made w run)
    (ha : r.Answers script made replies) (hend : run.world.clock.raised = false) :
    run.world.clock.signal? = w.clock.signal? ∧
      ∀ u, ¬ Trace.RaisesAt replies run.trace u := by
  induction h generalizing replies with
  | withdrawn hw =>
      rw [withdrawn_world, hw] at hend
      cases hend
  | interrupted _ ht =>
      rw [Run.world_after, withdrawn_world, ht] at hend
      cases hend
  | succeeded | refused | exhausted =>
      obtain ⟨hsignal, hraise⟩ := call_unraised ha hend
      exact ⟨hsignal, hraise (by simp [Event.start?])⟩
  | @retried made w cause delay run _ _ _ _ rest ih =>
      obtain ⟨hsignal, hraise⟩ := backoff_unraised ha (rest.unraised_start hend)
      obtain ⟨hrest, hlater⟩ := ih (ha.after_attempt w quiet_retrying) hend
      refine ⟨hrest.trans hsignal, fun u hu => ?_⟩
      rw [Run.trace_after, Trace.raisesAt_append] at hu
      exact hu.elim (hraise quiet_retrying u) (hlater u)

/-- A run that ends with the signal raised has met it. -/
theorem Course.met (h : Course r script start made w run) (ha : r.Answers script made replies)
    (hw : w.clock.raised = false) (hend : run.world.clock.raised = true) :
    ∃ t, w.clock.now ≤ t ∧ Met replies w.clock.signal? run.trace t := by
  induction h generalizing replies with
  | withdrawn hraised =>
      rw [hraised] at hw
      cases hw
  | @interrupted made w _ ht =>
      exact ⟨_, now_le_takeTurn r w, turn_met hw ht (by simp [Event.start?])⟩
  | succeeded _ ht | refused _ ht | exhausted _ ht =>
      obtain ⟨t, hle, hmet⟩ := call_met ha ht hend
      exact ⟨t, hle, hmet (by simp [Event.start?])⟩
  | @retried made w cause delay run _ ht _ _ rest ih =>
      -- The signal came during this call, in the wait after it, or in what is left of the run.
      cases hcall : (r.afterCall script made w).clock.raised with
      | true =>
          obtain ⟨t, hle, hmet⟩ := call_met ha ht hcall
          have hwait : (r.afterBackoff script made delay w).clock = _ :=
            Clock.wait_of_raised hcall delay
          obtain rfl := rest.of_raised (by rw [hwait, hcall])
          refine ⟨t, hle, ?_⟩
          rw [Run.trace_after, withdrawn_trace, List.append_assoc]
          exact hmet (by simp [Event.start?])
      | false =>
          cases hnext : (r.afterBackoff script made delay w).clock.raised with
          | true =>
              obtain rfl := rest.of_raised hnext
              refine ⟨(r.afterBackoff script made delay w).clock.now, now_le_afterBackoff, ?_⟩
              rw [Run.trace_after, withdrawn_trace, List.append_assoc]
              exact backoff_met ha hcall hnext (by simp [Event.start?])
          | false =>
              obtain ⟨hsignal, hraise⟩ := backoff_unraised ha hnext
              obtain ⟨t, hle, hmet⟩ := ih (ha.after_attempt w quiet_retrying) hnext hend
              refine ⟨t, Nat.le_trans now_le_afterBackoff hle, ?_⟩
              rw [hsignal] at hmet
              rw [Run.trace_after, ← List.append_nil (_ ++ run.trace)]
              exact hmet.embed (hraise quiet_retrying)
                ((begunBy_backoff quiet_retrying delay).mono hle) Trace.quiet_nil

/-- The signal ends a run in the event that it is raised in. -/
theorem Course.stops (h : Course r script start made w run) (hb : r.HoldsEnd start)
    (hs : start ≤ w.clock.now) (ha : r.Answers script made replies)
    (hw : w.clock.raised = false) (hnot : NotBefore replies w.clock.signal? run.trace t)
    (htrace : run.trace = before ++ e :: after)
    (he : RaisedIn replies w.clock.signal? before t e finish flight) :
    after.Quiet ∧ run.world.clock.raised = true ∧ run.world.clock.now = finish ∧
      CutShort r start finish flight run.verdict := by
  induction h generalizing replies before with
  | withdrawn hraised =>
      rw [hraised] at hw
      cases hw
  | interrupted _ ht =>
      rcases Trace.split_pair htrace with ⟨rfl, rfl, rfl⟩ | ⟨-, rfl, -⟩
      · obtain ⟨-, hnow, rfl⟩ := turn_stops hw he
        exact ⟨by simp [Event.start?], ht, hnow, .waiting⟩
      · cases he
  | @succeeded made w v _ ht hanswer =>
      obtain ⟨rfl, hraised, hnow, rfl⟩ := last_stops ha hw ht (fun _ hx => by cases hx) htrace he
      refine ⟨by simp [Event.start?], hraised, hnow, .answered ?_⟩
      rw [Reply.bare_ok hanswer]
      rfl
  | @refused made w cause _ ht hanswer =>
      obtain ⟨rfl, hraised, hnow, rfl⟩ := last_stops ha hw ht (fun _ hx => by cases hx) htrace he
      refine ⟨by simp [Event.start?], hraised, hnow, .answered ?_⟩
      rw [Reply.bare_error hanswer]
      rfl
  | @exhausted made w cause _ ht hanswer hn =>
      obtain ⟨rfl, hraised, rfl, rfl⟩ := last_stops ha hw ht (fun _ hx => by cases hx) htrace he
      refine ⟨by simp [Event.start?], hraised, rfl, .answered ?_⟩
      rw [Reply.bare_error hanswer]
      have hspent := (next_eq_giveUp_iff hb _ (Nat.le_trans hs now_le_afterCall)).mp hn
      exact (if_pos hspent).symm
  | @retried made w cause delay run _ ht hanswer hn rest ih =>
      rw [Run.trace_after] at hnot
      rw [Run.trace_after, List.append_assoc] at htrace
      rcases split_events htrace with
        ⟨rfl, rfl, -⟩ | ⟨rfl, rfl, rfl⟩ | ⟨-, rfl, rfl⟩ | ⟨mid, rfl, hrest⟩
      · rw [(turn_stops hw he).1] at ht
        cases ht
      · obtain ⟨hraised, hnow, hcut⟩ := failure_stops ha ht hanswer hn he
        obtain rfl := rest.of_raised hraised
        exact ⟨by simp [Event.start?], hraised, hnow, hcut⟩
      · obtain ⟨hraised, rfl, rfl⟩ := backoff_stops ha ht quiet_retrying hnot.front.le_raise he
        obtain rfl := rest.of_raised hraised
        exact ⟨by simp [Event.start?], hraised, rfl, .waiting⟩
      · cases hnext : (r.afterBackoff script made delay w).clock.raised with
        | true =>
            obtain rfl := rest.of_raised hnext
            obtain ⟨-, rfl, -⟩ := Trace.split_singleton hrest
            cases he
        | false =>
            have hsignal := (backoff_unraised ha hnext).1
            rw [List.append_cons] at he
            have hlater := hnot.back
            have hraised := raisedIn_shift.mpr he
            rw [← hsignal] at hlater hraised
            exact ih (Nat.le_trans hs now_le_afterBackoff) (ha.after_attempt w quiet_retrying)
              hnext hlater hrest hraised

/-! ## Runs that do not end -/

theorem Endless.not_raisesAt {fuel : Nat} {events : Trace}
    (h : Endless r script start fuel made w events) (ha : r.Answers script made replies)
    (u : Nanos) : ¬ events.RaisesAt replies u := by
  induction h generalizing replies with
  | counted => exact Trace.quiet_nil.not_raisesAt
  | again _ _ _ _ rest ih =>
      intro hu
      rw [List.append_cons, Trace.raisesAt_append] at hu
      exact hu.elim ((backoff_unraised ha rest.unraised).2 quiet_retrying u)
        (ih (ha.after_attempt _ quiet_retrying))

theorem Endless.begunBy {fuel : Nat} {events : Trace}
    (h : Endless r script start fuel made w events) (ha : r.Answers script made replies)
    (hdue : w.clock.signal? = some t) : events.BegunBy t := by
  induction h generalizing replies with
  | counted => exact Trace.quiet_nil.begunBy t
  | @again fuel made w cause delay events _ ht _ _ rest ih =>
      have hturn : (r.takeTurn w).clock.now ≤ t :=
        Clock.now_le_signal ((takeTurn_unraised ht).trans hdue)
      have hsignal := (backoff_unraised ha rest.unraised).1
      rw [List.append_cons, Trace.begunBy_append]
      exact ⟨(begunBy_turn quiet_retrying).mono hturn,
        ih (ha.after_attempt w Trace.quiet_nil) (hsignal.trans hdue)⟩

theorem Endless.not_raisedIn {fuel : Nat} {events : Trace}
    (h : Endless r script start fuel made w events) (ha : r.Answers script made replies)
    (htrace : events = before ++ e :: after) :
    ¬ RaisedIn replies w.clock.signal? before t e finish flight := by
  induction h generalizing replies before with
  | counted => simp at htrace
  | @again fuel made w cause delay events hw ht _ _ rest ih =>
      obtain ⟨hsignal, hraise⟩ := backoff_unraised ha rest.unraised
      intro he
      rcases split_events htrace with
        ⟨rfl, rfl, -⟩ | ⟨rfl, rfl, rfl⟩ | ⟨-, rfl, rfl⟩ | ⟨mid, rfl, hrest⟩
      · rw [(turn_stops hw he).1] at ht
        cases ht
      · have hcall := (Clock.wait_unraised rest.unraised).1
        rw [(call_stops ha ht he).1] at hcall
        cases hcall
      · have hraised := (backoff_stops ha ht Trace.quiet_nil
          (fun u hu => (hraise Trace.quiet_nil u hu).elim) he).1
        rw [rest.unraised] at hraised
        cases hraised
      · rw [List.append_cons] at he
        have hraised := raisedIn_shift.mpr he
        rw [← hsignal] at hraised
        exact ih (ha.after_attempt w quiet_retrying) hrest hraised

/-! ## The events of a run -/

theorem events_of_raised (hw : w.clock.raised = true) :
    ∀ e ∈ r.events script w, e = .cancelled r.action 0 := by
  rcases events_cases r script w with ⟨run, -, hc, hevents⟩ | ⟨-, hendless | hevents⟩
  · obtain rfl := hc.of_raised hw
    simp [hevents]
  · rw [hendless.unraised] at hw
    cases hw
  · simp [hevents]

theorem quiet_events_of_raised (hw : w.clock.raised = true) : (r.events script w).Quiet := by
  intro e he
  rw [events_of_raised hw e he]
  rfl

/-- A run that meets its signal in one of its events returns. -/
theorem events_stops (ha : r.Answers script 0 replies) (hw : w.clock.raised = false)
    (hnot : NotBefore replies w.clock.signal? (r.events script w) t)
    (htrace : r.events script w = before ++ e :: after)
    (he : RaisedIn replies w.clock.signal? before t e finish flight) :
    after.Quiet ∧ ∃ run, r.run script w = some run ∧ run.world.clock.raised = true ∧
      run.world.clock.now = finish ∧ CutShort r w.clock.now finish flight run.verdict := by
  rcases events_cases r script w with ⟨run, hrun, hc, hevents⟩ | ⟨-, hendless | hevents⟩
  · rw [hevents] at hnot htrace
    obtain ⟨hquiet, hend⟩ :=
      hc.stops (run_course hrun).1 (Nat.le_refl _) ha hw hnot htrace he
    exact ⟨hquiet, run, hrun, hend⟩
  · exact (hendless.not_raisedIn ha htrace he).elim
  · simp [hevents] at htrace

theorem events_begunBy (ha : r.Answers script 0 replies) (hw : w.clock.raised = false)
    (ht : SignalAt replies w.clock.signal? (r.events script w) t) :
    w.clock.now ≤ t ∧ (r.events script w).BegunBy t := by
  rcases events_cases r script w with ⟨run, -, hc, hevents⟩ | ⟨-, hendless | hevents⟩
  · rw [hevents] at ht ⊢
    cases hend : run.world.clock.raised with
    | true =>
        obtain ⟨u, hle, hmet⟩ := hc.met ha hw hend
        rw [ht.unique hmet.signal]
        exact ⟨hle, hmet.begunBy⟩
    | false =>
        obtain ⟨hsignal, hraise⟩ := hc.unraised ha hend
        have hdue := ht.source.resolve_right (hraise t)
        exact ⟨Clock.now_le_signal hdue,
          hc.begunBy.mono (Clock.now_le_signal (hsignal.trans hdue))⟩
  · have hdue := ht.source.resolve_right (hendless.not_raisesAt ha t)
    exact ⟨Clock.now_le_signal hdue, hendless.begunBy ha hdue⟩
  · rw [hevents] at ht ⊢
    have hdue := ht.source.resolve_right Trace.quiet_nil.not_raisesAt
    exact ⟨Clock.now_le_signal hdue, Trace.quiet_nil.begunBy t⟩

end Retrier

end Settle
