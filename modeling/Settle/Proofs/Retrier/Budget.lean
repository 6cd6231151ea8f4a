import Settle.Proofs.Retrier.Events

/-! # The time budget of a run

The loop gives up exactly when a retryable failure finds the budget spent, and every wait between
attempts ends inside it. So at most the last attempt reaches past the end. -/

namespace Settle

theorem Policy.next_eq_giveUp_iff (p : Policy) (draw : Binary64) (attempt : Nat)
    (elapsed : Nanos) : p.next draw attempt elapsed = .giveUp ↔ p.budget ≤ elapsed := by
  unfold Policy.next
  split <;> simp [*]

namespace Retrier

variable {σ α : Type}

/-! ## The end of the budget -/

variable {r : Retrier σ} {script : Nat → Reply (Except Setback α)} {start : Nanos}
  {made : Nat} {w : World σ} {run : Run σ α}

/-- The year replaces only budgets that are longer. -/
theorem budgetEnd_le (hb : r.HoldsEnd start) :
    r.budgetEnd start ≤ ((start + r.policy.budget : Nanos) : Instant) := by
  unfold HoldsEnd at hb
  unfold budgetEnd
  cases r.deadline with
  | none => dsimp only; split <;> lia
  | some d => dsimp only; split <;> lia

theorem policy_next_ne_giveUp (hb : r.HoldsEnd start) {now : Nanos} (hs : start ≤ now)
    (hnow : (now : Instant) < r.budgetEnd start) (n : Nat) :
    r.policy.next (r.draw n) n (now - start) ≠ .giveUp := by
  intro h
  have hspent := (Policy.next_eq_giveUp_iff _ _ _ _).mp h
  have hend := budgetEnd_le hb
  lia

/-- A retryable failure ends the run exactly at the end of the budget or after it. -/
theorem next_eq_giveUp_iff (hb : r.HoldsEnd start) (n : Nat) {now : Nanos}
    (hs : start ≤ now) : r.next start n now = .giveUp ↔ r.budgetEnd start ≤ now := by
  unfold Retrier.next remaining
  by_cases hleft : (r.budgetEnd start - now).toNat = 0
  · simp only [hleft, if_true, true_iff]
    lia
  · have hnow : (now : Instant) < r.budgetEnd start := by lia
    have hpolicy := policy_next_ne_giveUp hb hs hnow n
    cases hp : r.policy.next (r.draw n) n (now - start) with
    | giveUp => exact (hpolicy hp).elim
    | retryAfter delay =>
        simp only [hleft, if_false, reduceCtorEq, false_iff]
        lia

/-- A delay between attempts is the policy's, cut at what is left of the budget. -/
theorem exists_of_next_eq_retryAfter {n : Nat} {now delay : Nanos}
    (h : r.next start n now = .retryAfter delay) :
    ∃ nominal, r.policy.next (r.draw n) n (now - start) = .retryAfter nominal ∧
      delay = min nominal (r.remaining start now) ∧ 0 < r.remaining start now := by
  unfold Retrier.next at h
  by_cases hleft : r.remaining start now = 0
  · simp [hleft] at h
  · simp only [hleft, if_false] at h
    cases hp : r.policy.next (r.draw n) n (now - start) with
    | giveUp => simp [hp] at h
    | retryAfter nominal =>
        simp only [hp, Decision.retryAfter.injEq] at h
        exact ⟨nominal, rfl, h.symm, Nat.pos_of_ne_zero hleft⟩

theorem next_retryAfter {n : Nat} {now delay : Nanos}
    (h : r.next start n now = .retryAfter delay) :
    (now : Instant) < r.budgetEnd start ∧
      ((now + delay : Nanos) : Instant) ≤ r.budgetEnd start := by
  obtain ⟨nominal, -, hcut, hleft⟩ := exists_of_next_eq_retryAfter h
  unfold remaining at hcut hleft
  lia

/-! ## Bookings -/

theorem takeTurn_now_le (r : Retrier σ) (w : World σ) :
    (r.takeTurn w).clock.now ≤ w.clock.now + r.turnWait w := by
  unfold takeTurn
  split
  · exact Nat.le_add_right _ _
  · exact Clock.wait_now_le _ _

theorem afterBackoff_le {n : Nat} {delay : Nanos}
    (h : r.next start n (r.afterCall script made w).clock.now = .retryAfter delay) :
    ((r.afterBackoff script made delay w).clock.now : Instant) ≤ r.budgetEnd start := by
  have hend := (next_retryAfter h).2
  have hwait := Clock.wait_now_le (r.afterCall script made w).clock delay
  rw [afterBackoff_clock]
  lia

theorem Course.booked_le (h : Course r script start made w run)
    (hw : (w.clock.now : Instant) ≤ r.budgetEnd start) :
    ∀ e ∈ run.trace, ∀ t, e.booked? = some t → (t : Instant) ≤ r.budgetEnd start := by
  induction h with
  | withdrawn => simp [Event.booked?]
  | interrupted =>
      intro e he t ht
      rcases List.mem_cons.mp he with rfl | he
      · rwa [← Option.some.inj ht]
      · obtain rfl := List.mem_singleton.mp he
        cases ht
  | succeeded | refused | exhausted =>
      intro e he t ht
      rcases booked_mem_attempt rfl he ht with rfl | he
      · exact hw
      · cases he
  | retried _ _ _ hn _ ih =>
      intro e he t ht
      rw [Run.trace_after, List.append_assoc] at he
      rcases booked_mem_attempt rfl he ht with rfl | he
      · exact hw
      · exact ih (afterBackoff_le hn) e he t ht

/-- If a turn is booked later than `e`, then `e` began before `stop` and the turn is booked by
then. -/
def InTime (stop : Instant) (e later : Event) : Prop :=
  ∀ t u, e.start? = some t → later.booked? = some u → (t : Instant) < stop ∧ (u : Instant) ≤ stop

theorem attempt_inTime {stop : Instant} {x : Event} {rest : Trace} (hx : x.start? = none)
    (hrest : rest.Pairwise (InTime stop))
    (hlater : ∀ e ∈ rest, ∀ u, e.booked? = some u →
      ((r.takeTurn w).clock.now : Instant) < stop ∧ (u : Instant) ≤ stop) :
    (r.opening w ++ x :: rest).Pairwise (InTime stop) := by
  have hturn := now_le_takeTurn r w
  have hquiet : ∀ e u, x = e → e.booked? ≠ some u := by
    rintro e u rfl hu
    cases x <;> simp_all [Event.start?, Event.booked?]
  simp only [opening, List.cons_append, List.nil_append, List.pairwise_cons, List.mem_cons,
    forall_eq_or_imp]
  refine ⟨⟨?_, ?_, ?_⟩, ⟨?_, ?_⟩, ?_, hrest⟩
  · intro t u _ hu
    cases hu
  · intro t u _ hu
    exact (hquiet x u rfl hu).elim
  · intro e he t u ht hu
    obtain rfl : w.clock.now = t := Option.some.inj ht
    have hstop := hlater e he u hu
    exact ⟨by lia, hstop.2⟩
  · intro t u _ hu
    exact (hquiet x u rfl hu).elim
  · intro e he t u ht hu
    obtain rfl : (r.takeTurn w).clock.now = t := Option.some.inj ht
    exact hlater e he u hu
  · intro e he t u ht
    simp [hx] at ht

/-- What begins at the end of the budget or later is followed by no further booking. -/
theorem Course.inTime (h : Course r script start made w run) :
    run.trace.Pairwise (InTime (r.budgetEnd start)) := by
  induction h with
  | withdrawn => exact List.pairwise_singleton _ _
  | interrupted =>
      refine List.pairwise_cons.mpr ⟨?_, List.pairwise_singleton _ _⟩
      intro e he t u _ hu
      obtain rfl := List.mem_singleton.mp he
      cases hu
  | succeeded | refused | exhausted => exact attempt_inTime rfl .nil nofun
  | @retried made w cause delay run _ _ _ hn rest ih =>
      rw [Run.trace_after, List.append_assoc]
      refine attempt_inTime rfl ih fun e he u hu => ⟨?_, ?_⟩
      · have hlt := (next_retryAfter hn).1
        rw [afterCall_now] at hlt
        lia
      · exact rest.booked_le (afterBackoff_le hn) e he u hu

/-- All that begins in a run that does not end begins while there is time left. -/
theorem Endless.begun_lt {fuel : Nat} {t : Trace} (h : Endless r script start fuel made w t) :
    ∀ e ∈ t, ∀ u, e.start? = some u → (u : Instant) < r.budgetEnd start := by
  induction h with
  | counted => nofun
  | @again fuel made w cause delay t _ _ _ hn _ ih =>
      intro e he u hu
      have hleft := (next_retryAfter hn).1
      have hturn := now_le_takeTurn r w
      rw [afterCall_now] at hleft
      obtain ⟨before, after, htrace⟩ := List.append_of_mem he
      rcases split_attempt rfl hu htrace with ⟨-, rfl, -⟩ | ⟨-, rfl, -⟩ | ⟨mid, -, hrest⟩
      · obtain rfl : w.clock.now = u := Option.some.inj hu
        lia
      · obtain rfl : (r.takeTurn w).clock.now = u := Option.some.inj hu
        lia
      · exact ih e (by simp [hrest]) u hu

/-! ## What follows a retryable failure -/

/-- Call number `n` of these events, which stands between the two parts of them, fails retryably at
`now`. -/
structure FailsAt (r : Retrier σ) (script : Nat → Reply (Except Setback α)) (made : Nat)
    (t before after : Trace) (n : Nat) (now : Nanos) (cause : Cause) : Prop where
  call : ∃ u, t = before ++ .called r.stage u :: after ∧ now = u + (script n).took
  number : n = made + before.calls r.stage
  answer : (script n).answer = .error (.retryable cause)

section failure

variable {t before after : Trace} {n : Nat} {now : Nanos} {cause : Cause}

theorem FailsAt.calls_pos (h : FailsAt r script made t before after n now cause) :
    0 < t.calls r.stage := by
  obtain ⟨u, rfl, -⟩ := h.call
  rw [Trace.calls_called]
  omega

theorem FailsAt.of_attempt {x : Event} {rest : Trace} (hx : x.start? = none)
    (h : FailsAt r script made (r.opening w ++ x :: rest) before after n now cause) :
    (n = made ∧ now = (r.afterCall script made w).clock.now ∧ after = x :: rest) ∨
      ∃ mid, FailsAt r script (made + 1) rest mid after n now cause := by
  obtain ⟨⟨u, htrace, rfl⟩, hn, hanswer⟩ := h
  rcases split_call hx htrace with ⟨rfl, rfl, rfl⟩ | ⟨mid, rfl, hrest⟩
  · rw [calls_booking, Nat.add_zero] at hn
    subst hn
    exact .inl ⟨rfl, afterCall_now.symm, rfl⟩
  · exact .inr ⟨mid, ⟨u, hrest, rfl⟩, by rw [hn, calls_attempt hx, Nat.add_assoc], hanswer⟩

theorem FailsAt.of_last {x : Event} (hx : x.start? = none)
    (h : FailsAt r script made (r.opening w ++ [x]) before after n now cause) :
    (script made).answer = .error (.retryable cause) ∧
      n = made ∧ now = (r.afterCall script made w).clock.now ∧ after = [x] := by
  rcases h.of_attempt hx with ⟨rfl, hlast⟩ | ⟨mid, hlater⟩
  · exact ⟨h.answer, rfl, hlast⟩
  · exact (Nat.lt_irrefl 0 hlater.calls_pos).elim

/-- After a retryable failure the run is over if the budget is spent, and waits for another
attempt if it is not. -/
theorem Course.after_failure (h : Course r script start made w run) (hb : r.HoldsEnd start)
    (hs : start ≤ w.clock.now) (hf : FailsAt r script made run.trace before after n now cause) :
    (r.budgetEnd start ≤ now ∧ after = [.exhausted r.action (n + 1) (now - start) cause] ∧
        run.verdict = .error (.timedOut cause) ∧ run.world.clock.now = now) ∨
      ((now : Instant) < r.budgetEnd start ∧
        ∃ delay rest, after = .retrying r.action (n + 1) now delay cause :: rest) := by
  induction h generalizing before with
  | withdrawn | interrupted =>
      have hcalls := hf.calls_pos
      simp [booking, Trace.calls_cons, Event.isCall] at hcalls
  | succeeded _ _ ha | refused _ _ ha =>
      have hanswer := (hf.of_last rfl).1
      rw [ha] at hanswer
      cases hanswer
  | exhausted _ _ ha hgive =>
      obtain ⟨hanswer, rfl, rfl, rfl⟩ := hf.of_last rfl
      obtain rfl : _ = cause := by simpa [ha] using hanswer
      have hspent := (next_eq_giveUp_iff hb _ (Nat.le_trans hs now_le_afterCall)).mp hgive
      exact .inl ⟨hspent, rfl, rfl, rfl⟩
  | @retried made w last delay run _ _ ha hretry _ ih =>
      rw [Run.trace_after, List.append_assoc] at hf
      rcases hf.of_attempt rfl with ⟨rfl, rfl, rfl⟩ | ⟨mid, hlater⟩
      · obtain rfl : last = cause := by simpa [ha] using hf.answer
        exact .inr ⟨(next_retryAfter hretry).1, delay, run.trace, rfl⟩
      · exact ih (Nat.le_trans hs now_le_afterBackoff) hlater

theorem Endless.after_failure {fuel : Nat} (h : Endless r script start fuel made w t)
    (hf : FailsAt r script made t before after n now cause) :
    (now : Instant) < r.budgetEnd start ∧
      ∃ delay rest, after = .retrying r.action (n + 1) now delay cause :: rest := by
  induction h generalizing before with
  | counted => exact (Nat.lt_irrefl 0 hf.calls_pos).elim
  | @again fuel made w last delay t _ _ ha hretry _ ih =>
      rcases hf.of_attempt rfl with ⟨rfl, rfl, rfl⟩ | ⟨mid, hlater⟩
      · obtain rfl : last = cause := by simpa [ha] using hf.answer
        exact ⟨(next_retryAfter hretry).1, delay, t, rfl⟩
      · exact ih hlater

end failure

/-! ## Waits, and the whole run -/

theorem Course.wait_le (h : Course r script start made w run) {action : String} {n : Nat}
    {now delay : Nanos} {cause : Cause}
    (he : .retrying action n now delay cause ∈ run.trace) :
    ((now + delay : Nanos) : Instant) ≤ r.budgetEnd start := by
  induction h with
  | withdrawn => simp at he
  | interrupted => simp [booking] at he
  | succeeded | refused | exhausted => simp [opening, booking] at he
  | retried _ _ _ hn _ ih =>
      simp only [Run.trace_after, opening, booking, List.cons_append, List.nil_append,
        List.mem_cons, reduceCtorEq, false_or, Event.retrying.injEq] at he
      rcases he with ⟨-, -, rfl, rfl, -⟩ | he
      · exact (next_retryAfter hn).2
      · exact ih he

theorem Endless.wait_le {fuel : Nat} {t : Trace} (h : Endless r script start fuel made w t)
    {action : String} {n : Nat} {now delay : Nanos} {cause : Cause}
    (he : .retrying action n now delay cause ∈ t) :
    ((now + delay : Nanos) : Instant) ≤ r.budgetEnd start := by
  induction h with
  | counted => cases he
  | again _ _ _ hn _ ih =>
      simp only [opening, booking, List.cons_append, List.nil_append, List.mem_cons, reduceCtorEq,
        false_or, Event.retrying.injEq] at he
      rcases he with ⟨-, -, rfl, rfl, -⟩ | he
      · exact (next_retryAfter hn).2
      · exact ih he

theorem Course.of_unbooked (h : Course r script start made w run)
    (he : ∀ e ∈ run.trace, e.booked? = none) :
    run.trace.Quiet ∧ run.world.clock.now = w.clock.now := by
  cases h with
  | withdrawn => exact ⟨by simp [Event.start?], rfl⟩
  | interrupted | succeeded | refused | exhausted | retried =>
      have hbooked := he (r.booking w) (by simp [opening])
      simp at hbooked

theorem Course.calls_after_last (h : Course r script start made w run) {before after : Trace}
    {e : Event} {t : Nanos} (htrace : run.trace = before ++ e :: after)
    (he : e.start? = some t) (hlast : ∀ x ∈ after, x.booked? = none) :
    after.calls r.stage ≤ if e.booked? = none then 0 else 1 := by
  induction h generalizing before with
  | withdrawn =>
      obtain ⟨-, rfl, -⟩ := Trace.split_singleton htrace
      cases he
  | interrupted =>
      rcases Trace.split_pair htrace with ⟨-, rfl, rfl⟩ | ⟨-, rfl, -⟩
      · simp [Trace.calls_cons, Event.isCall]
      · cases he
  | succeeded | refused | exhausted =>
      rcases split_attempt rfl he htrace with ⟨-, rfl, rfl⟩ | ⟨-, rfl, rfl⟩ | ⟨mid, -, hrest⟩
      · simp [Trace.calls_cons, Event.isCall]
      · simp [Trace.calls_cons, Event.isCall]
      · simp at hrest
  | retried _ _ _ _ rest ih =>
      rw [Run.trace_after, List.append_assoc] at htrace
      rcases split_attempt rfl he htrace with ⟨-, rfl, rfl⟩ | ⟨-, rfl, rfl⟩ | ⟨mid, -, hrest⟩
      · have hquiet := (rest.of_unbooked fun x hx => hlast x (by simp [hx])).1
        simp [Trace.calls_cons, Event.isCall, hquiet.calls_eq_zero]
      · have hquiet := (rest.of_unbooked fun x hx => hlast x (by simp [hx])).1
        simp [Trace.calls_cons, Event.isCall, hquiet.calls_eq_zero]
      · exact ih hrest

/-- A run ends with its budget, but for the turn and the call of its last attempt. -/
theorem Course.now_le_last (h : Course r script start made w run)
    (hw : (w.clock.now : Instant) ≤ max (start : Instant) (r.budgetEnd start))
    {before after : Trace} {stage : Stage} {action : String} {t wait : Nanos}
    {announced : Bool}
    (htrace : run.trace = before ++ .reserved stage action t wait announced :: after)
    (hlast : ∀ e ∈ after, e.booked? = none) :
    (run.world.clock.now : Instant) ≤ max (start : Instant) (r.budgetEnd start) + wait +
      (if after.calls r.stage = 0 then 0
        else (script (made + before.calls r.stage)).took : Nanos) := by
  induction h generalizing before with
  | withdrawn =>
      obtain ⟨-, he, -⟩ := Trace.split_singleton htrace
      cases he
  | @interrupted made w _ _ =>
      rcases Trace.split_pair htrace with ⟨-, he, -⟩ | ⟨-, he, -⟩
      · have hwait : wait = r.turnWait w := (Event.reserved.inj he).2.2.2.1
        have hturn := takeTurn_now_le r w
        rw [Run.world_after, withdrawn_world]
        lia
      · cases he
  | @succeeded made w _ _ _ _ | @refused made w _ _ _ _ | @exhausted made w _ _ _ _ _ =>
      rcases split_booking rfl htrace with ⟨rfl, rfl, rfl⟩ | ⟨mid, rfl, hrest⟩
      · have hturn := takeTurn_now_le r w
        have hcalls (x : Event) :
            Trace.calls [.called r.stage (r.takeTurn w).clock.now, x] r.stage ≠ 0 := by
          simp [Trace.calls_cons, Event.isCall]
        rw [if_neg (hcalls _), afterCall_now, Trace.calls_nil, Nat.add_zero]
        lia
      · simp at hrest
  | @retried made w _ delay run _ _ _ hn rest ih =>
      rw [Run.trace_after, List.append_assoc] at htrace
      have hnext := afterBackoff_le hn
      rcases split_booking rfl htrace with ⟨rfl, rfl, rfl⟩ | ⟨mid, rfl, hrest⟩
      · have hend : run.world.clock.now = _ :=
          (rest.of_unbooked fun e he => hlast e (by simp [he])).2
        rw [Run.world_after, hend]
        lia
      · rw [calls_attempt rfl, ← Nat.add_assoc]
        exact ih (by lia) hrest

/-- How a run from `w` keeps to its budget, which ends at `r.budgetEnd w.clock.now`. A failure or an
attempt that comes when the budget is spent is the end of the run, so the run returns. -/
structure BudgetSpec (r : Retrier σ) (script : Nat → Reply (Except Setback α)) (w : World σ) :
    Prop where
  spent : ∀ {before after n now cause},
    FailsAt r script 0 (r.events script w) before after n now cause →
      r.budgetEnd w.clock.now ≤ now →
        after = [.exhausted r.action (n + 1) (now - w.clock.now) cause] ∧
          ∃ run, r.run script w = some run ∧ run.verdict = .error (.timedOut cause) ∧
            run.world.clock.now = now
  left : ∀ {before after n now cause},
    FailsAt r script 0 (r.events script w) before after n now cause →
      (now : Instant) < r.budgetEnd w.clock.now →
        ∃ delay rest, after = .retrying r.action (n + 1) now delay cause :: rest
  policy_left : r.HoldsEnd w.clock.now → ∀ (n : Nat) (now : Nanos), w.clock.now ≤ now →
    (now : Instant) < r.budgetEnd w.clock.now →
      r.policy.next (r.draw n) n (now - w.clock.now) ≠ .giveUp
  wait_le : ∀ {action n now delay cause},
    .retrying action n now delay cause ∈ r.events script w →
      ((now + delay : Nanos) : Instant) ≤ r.budgetEnd w.clock.now
  booked_le : ∀ {before after : Trace} {e : Event} {t : Nanos},
    r.events script w = before ++ e :: after → e.booked? = some t →
      (∃ x ∈ before, x.booked?.isSome) → (t : Instant) ≤ r.budgetEnd w.clock.now
  last : ∀ {before after : Trace} {e : Event} {t : Nanos},
    r.events script w = before ++ e :: after → e.start? = some t →
      r.budgetEnd w.clock.now ≤ t →
        (∃ run, r.run script w = some run) ∧ (∀ x ∈ after, x.booked? = none) ∧
          after.calls r.stage ≤ if e.booked? = none then 0 else 1
  now_le : ∀ {run}, r.run script w = some run →
    ∀ {before after : Trace} {stage action} {t wait : Nanos} {announced},
      run.trace = before ++ .reserved stage action t wait announced :: after →
      (∀ x ∈ after, x.booked? = none) →
        (run.world.clock.now : Instant) - w.clock.now ≤
          max (r.budgetEnd w.clock.now - w.clock.now) 0 + wait +
            (if after.calls r.stage = 0 then 0 else (script (before.calls r.stage)).took : Nanos)
  idle : ∀ {run}, r.run script w = some run → (∀ x ∈ run.trace, x.booked? = none) →
    run.world.clock.now = w.clock.now

section events

variable {before after : Trace} {n : Nat} {now t : Nanos} {cause : Cause} {e : Event}

theorem events_after_failure
    (hf : FailsAt r script 0 (r.events script w) before after n now cause) :
    (r.budgetEnd w.clock.now ≤ now ∧
        after = [.exhausted r.action (n + 1) (now - w.clock.now) cause] ∧
        ∃ run, r.run script w = some run ∧ run.verdict = .error (.timedOut cause) ∧
          run.world.clock.now = now) ∨
      ((now : Instant) < r.budgetEnd w.clock.now ∧
        ∃ delay rest, after = .retrying r.action (n + 1) now delay cause :: rest) := by
  rcases events_cases r script w with ⟨run, hrun, hc, hevents⟩ | ⟨-, hendless | hevents⟩
  · rw [hevents] at hf
    refine (hc.after_failure (run_course hrun).1 (Nat.le_refl _) hf).imp_left ?_
    rintro ⟨hle, hafter, hend⟩
    exact ⟨hle, hafter, run, hrun, hend⟩
  · exact .inr (hendless.after_failure hf)
  · rw [hevents] at hf
    exact (Nat.lt_irrefl 0 hf.calls_pos).elim

theorem events_booked_le (htrace : r.events script w = before ++ e :: after)
    (he : e.booked? = some t) (hearlier : ∃ x ∈ before, x.booked?.isSome) :
    (t : Instant) ≤ r.budgetEnd w.clock.now := by
  obtain ⟨x, hmem, hbooked⟩ := hearlier
  rcases events_cases r script w with ⟨run, -, hc, hevents⟩ | ⟨-, hendless | hevents⟩
  · have hpair := hc.inTime
    rw [← hevents, htrace, List.pairwise_append] at hpair
    obtain ⟨u, hu⟩ := Option.isSome_iff_exists.mp hbooked
    exact (hpair.2.2 x hmem e (by simp) u t (Event.start?_of_booked hu) he).2
  · rw [htrace] at hendless
    exact Int.le_of_lt (hendless.begun_lt e (by simp) t (Event.start?_of_booked he))
  · simp [hevents] at htrace

theorem events_last (htrace : r.events script w = before ++ e :: after) (he : e.start? = some t)
    (hle : r.budgetEnd w.clock.now ≤ t) :
    (∃ run, r.run script w = some run) ∧ (∀ x ∈ after, x.booked? = none) ∧
      after.calls r.stage ≤ if e.booked? = none then 0 else 1 := by
  rcases events_cases r script w with ⟨run, hrun, hc, hevents⟩ | ⟨-, hendless | hevents⟩
  · have hpair := hc.inTime
    rw [← hevents, htrace, List.pairwise_append, List.pairwise_cons] at hpair
    have hlast : ∀ x ∈ after, x.booked? = none := by
      intro x hx
      cases hu : x.booked? with
      | none => rfl
      | some u => exact (Int.not_le.mpr (hpair.2.1.1 x hx t u he hu).1 hle).elim
    exact ⟨⟨run, hrun⟩, hlast, hc.calls_after_last (hevents ▸ htrace) he hlast⟩
  · rw [htrace] at hendless
    exact (Int.not_le.mpr (hendless.begun_lt e (by simp) t he) hle).elim
  · simp [hevents] at htrace

end events

/-- Every run keeps to its budget, and returns where that ends it. -/
theorem run_budget (r : Retrier σ) (script : Nat → Reply (Except Setback α)) (w : World σ) :
    BudgetSpec r script w where
  spent hf hle := by
    rcases events_after_failure hf with ⟨-, hend⟩ | ⟨hlt, -⟩
    · exact hend
    · exact (Int.not_le.mpr hlt hle).elim
  left hf hlt := by
    rcases events_after_failure hf with ⟨hle, -⟩ | ⟨-, hnext⟩
    · exact (Int.not_le.mpr hlt hle).elim
    · exact hnext
  policy_left hb n _ hnow hlt := policy_next_ne_giveUp hb hnow hlt n
  wait_le he := by
    rcases events_cases r script w with ⟨run, -, hc, hevents⟩ | ⟨-, hendless | hevents⟩
    · exact hc.wait_le (hevents ▸ he)
    · exact hendless.wait_le he
    · simp [hevents] at he
  booked_le := events_booked_le
  last := events_last
  now_le hrun _ _ _ _ _ _ _ htrace hlast := by
    have hnow := (run_course hrun).2.now_le_last (Int.le_max_left _ _) htrace hlast
    rw [Nat.zero_add] at hnow
    lia
  idle hrun hx := ((run_course hrun).2.of_unbooked hx).2

/-- A retrier whose second turn is booked as the budget ends and comes long after. -/
def lateTurn : Retrier Nat where
  policy := ⟨.millis 150, .millis 100, .millis 400, 2, false⟩
  gate := .ofList [0, .seconds 2]
  action := "GetDisk"

def alwaysPending (_ : Nat) : Reply (Except Setback Unit) where
  answer := .error (.retryable (.status "Creating" none))
  took := .millis 100

theorem run_budget_lateTurn : ∃ run,
    lateTurn.run alwaysPending ⟨{}, 0⟩ = some run ∧
      run.world.clock.now = .millis 2250 ∧ BudgetSpec lateTurn alwaysPending ⟨{}, 0⟩ := by
  have h : (lateTurn.run alwaysPending ⟨{}, 0⟩).map (·.world.clock.now) =
      some (.millis 2250) := by
    decide +kernel
  obtain ⟨run, hrun, hnow⟩ := Option.map_eq_some_iff.mp h
  exact ⟨run, hrun, hnow, run_budget _ _ _⟩

end Retrier

end Settle
