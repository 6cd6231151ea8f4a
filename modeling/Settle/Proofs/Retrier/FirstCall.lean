import Settle.Proofs.Retrier.Calls

/-! # The budget and the first call

The budget counts from the instant at which the first turn is booked. What the gate makes the run
wait for that turn is taken off the time that is left from the first call on. -/

namespace Settle

namespace Trace

/-- When the first call of a stage starts. -/
def firstCall? (t : Trace) (stage : Stage) : Option Nanos :=
  t.findSome? fun
    | .called s time => if s = stage then some time else none
    | _ => none

end Trace

namespace Retrier

variable {σ α : Type} {r : Retrier σ} {script : Nat → Reply (Except Setback α)} {start : Nanos}
  {made : Nat} {w : World σ} {run : Run σ α}

/-! ## The turn before the first call -/

theorem firstCall?_opening (r : Retrier σ) (w : World σ) (rest : Trace) :
    Trace.firstCall? (r.opening w ++ rest) r.stage = some (r.takeTurn w).clock.now := by
  simp [Trace.firstCall?, opening, booking]

/-- The first call starts when the wait for the first turn is over. -/
theorem Course.firstCall (h : Course r script start made w run) {t : Nanos}
    (ht : run.trace.firstCall? r.stage = some t) :
    w.clock.raised = false ∧ (r.takeTurn w).clock.raised = false ∧
      t = w.clock.now + r.turnWait w := by
  cases h with
  | withdrawn => simp [Trace.firstCall?] at ht
  | interrupted => simp [Trace.firstCall?, booking] at ht
  | succeeded hw hturn | refused hw hturn | exhausted hw hturn =>
      rw [firstCall?_opening] at ht
      exact ⟨hw, hturn, by rw [← Option.some.inj ht, takeTurn_now_eq hturn]⟩
  | retried hw hturn =>
      rw [Run.trace_after, List.append_assoc, firstCall?_opening] at ht
      exact ⟨hw, hturn, by rw [← Option.some.inj ht, takeTurn_now_eq hturn]⟩

theorem mem_of_firstCall? {events : Trace} {stage : Stage} {t : Nanos}
    (h : events.firstCall? stage = some t) : .called stage t ∈ events := by
  obtain ⟨e, he, hcall⟩ := List.exists_of_findSome?_eq_some h
  cases e <;> simp at hcall
  obtain ⟨rfl, rfl⟩ := hcall
  exact he

theorem firstCall?_le (h : Course r script start made w run) {t : Nanos}
    (ht : run.trace.firstCall? r.stage = some t) : t ≤ run.world.clock.now :=
  h.begunBy _ (mem_of_firstCall? ht) t rfl

/-! ## Running out of time -/

/-- A run that is out of time has used up its budget. -/
theorem Course.budgetEnd_le (h : Course r script start made w run) (hb : r.HoldsEnd start)
    (hs : start ≤ w.clock.now) {last : Cause} (hv : run.verdict = .error (.timedOut last)) :
    r.budgetEnd start ≤ run.world.clock.now := by
  induction h with
  | withdrawn | interrupted => cases hv
  | succeeded => cases hv
  | @refused made w cause =>
      have hreason : cause.reason = .timedOut last := Except.error.inj hv
      cases cause <;> cases hreason
  | exhausted _ _ _ hn => exact (next_eq_giveUp_iff hb _ (Nat.le_trans hs now_le_afterCall)).mp hn
  | retried _ _ _ _ _ ih => exact ih (Nat.le_trans hs now_le_afterBackoff) hv

theorem budgetEnd_of_held (hd : r.deadline = none)
    (hb : ((start + r.policy.budget : Nanos) : Instant) ≤ Instant.latest) :
    r.budgetEnd start = ((start + r.policy.budget : Nanos) : Instant) := by
  simp only [budgetEnd, hd, if_pos hb]

theorem holdsEnd_of_held (hb : ((start + r.policy.budget : Nanos) : Instant) ≤ Instant.latest) :
    r.HoldsEnd start := by
  unfold HoldsEnd
  have hmin : start + min r.policy.budget .year ≤ start + r.policy.budget :=
    Nat.add_le_add_left (Nat.min_le_left _ _) start
  lia

theorem run_of_spent (hb : r.HoldsEnd w.clock.now) (hw : w.clock.raised = false)
    (ht : (r.takeTurn w).clock.raised = false) {cause : Cause}
    (ha : (script 0).answer = .error (.retryable cause))
    (hspent : r.budgetEnd w.clock.now ≤ (r.afterCall script 0 w).clock.now) :
    ∃ run, r.run script w = some run ∧ run.verdict = .error (.timedOut cause) ∧
      run.world = r.afterCall script 0 w ∧
      run.trace.firstCall? r.stage = some (r.takeTurn w).clock.now := by
  have hn := (next_eq_giveUp_iff hb 1 now_le_afterCall).mpr hspent
  obtain ⟨fuel, hfuel⟩ : ∃ fuel, maxAttempts = fuel + 1 := ⟨2 ^ 32 - 2, by decide⟩
  rw [run_eq_loop hb, hfuel, loop, attempt_called hw ht, ha]
  simp only [conclude, Nat.zero_add, hn]
  exact ⟨_, rfl, rfl, rfl, firstCall?_opening r w _⟩

/-! ## Budgets that last from the first call -/

/-- Every call asks for another attempt when `took` is over. -/
def neverReady (took : Nanos) (_ : Nat) : Reply (Except Setback α) where
  answer := .error (.retryable (.status "Creating" none))
  took := took

/-- A first turn that is waited for leaves less than the budget to a first call that lasts until
the budget is spent. -/
theorem exists_timedOut_early (hd : r.deadline = none)
    (hb : ((w.clock.now + r.policy.budget : Nanos) : Instant) ≤ Instant.latest)
    (hw : w.clock.raised = false) (ht : (r.takeTurn w).clock.raised = false)
    (hwait : 0 < r.turnWait w) (hbudget : 0 < r.policy.budget) :
    ∃ (script : Nat → Reply (Except Setback α)) (run : Run σ α) (last : Cause) (t : Nanos),
      r.run script w = some run ∧ run.verdict = .error (.timedOut last) ∧
        run.trace.firstCall? r.stage = some t ∧
        run.world.clock.now < t + r.policy.budget := by
  have hturn := takeTurn_now_eq ht
  have hcall : (r.afterCall (neverReady (α := α) (r.policy.budget - r.turnWait w)) 0 w).clock.now =
      w.clock.now + r.turnWait w + (r.policy.budget - r.turnWait w) := by
    rw [afterCall_now, hturn, neverReady]
  have hspent : r.budgetEnd w.clock.now ≤
      (r.afterCall (neverReady (α := α) (r.policy.budget - r.turnWait w)) 0 w).clock.now := by
    rw [budgetEnd_of_held hd hb, hcall]
    lia
  obtain ⟨run, hrun, hv, hworld, hfirst⟩ := run_of_spent (holdsEnd_of_held hb) hw ht rfl hspent
  refine ⟨_, run, _, _, hrun, hv, hfirst, ?_⟩
  rw [hworld, hcall, hturn]
  lia

/-- A run without a deadline that runs out of time has used up its budget from its start on, which
its first call follows by the wait for the turn. -/
theorem run_timedOut (hd : r.deadline = none)
    (hb : ((w.clock.now + r.policy.budget : Nanos) : Instant) ≤ Instant.latest)
    (h : r.run script w = some run) {last : Cause} (hv : run.verdict = .error (.timedOut last))
    {t : Nanos} (ht : run.trace.firstCall? r.stage = some t) :
    t = w.clock.now + r.turnWait w ∧ w.clock.now + r.policy.budget ≤ run.world.clock.now := by
  obtain ⟨-, hc⟩ := run_course h
  have hspent := hc.budgetEnd_le (holdsEnd_of_held hb) (Nat.le_refl _) hv
  rw [budgetEnd_of_held hd hb] at hspent
  exact ⟨(hc.firstCall ht).2.2, Int.ofNat_le.mp hspent⟩

/-- Without a deadline, runs that run out of time have left their calls the whole budget, counted
from the first one, exactly if the first turn is not waited for, the budget is zero, or no call is
made at all. Otherwise they have left them the budget less that wait. -/
theorem timedOut_from_firstCall_iff (r : Retrier σ) (w : World σ) (hd : r.deadline = none)
    (hb : ((w.clock.now + r.policy.budget : Nanos) : Instant) ≤ Instant.latest) :
    (∀ (script : Nat → Reply (Except Setback α)) run last t, r.run script w = some run →
        run.verdict = .error (.timedOut last) → run.trace.firstCall? r.stage = some t →
        t + r.policy.budget ≤ run.world.clock.now + r.turnWait w) ∧
      ((∀ (script : Nat → Reply (Except Setback α)) run last t, r.run script w = some run →
          run.verdict = .error (.timedOut last) → run.trace.firstCall? r.stage = some t →
          t + r.policy.budget ≤ run.world.clock.now) ↔
        r.turnWait w = 0 ∨ r.policy.budget = 0 ∨ w.clock.raised = true ∨
          (r.takeTurn w).clock.raised = true) := by
  refine ⟨?_, ?_, ?_⟩
  · intro script run last t h hv ht
    obtain ⟨hfirst, hspent⟩ := run_timedOut hd hb h hv ht
    lia
  · intro hall
    cases hw : w.clock.raised with
    | true => simp
    | false =>
        cases hturn : (r.takeTurn w).clock.raised with
        | true => simp
        | false =>
            rcases Nat.eq_zero_or_pos (r.turnWait w) with hwait | hwait
            · exact .inl hwait
            · rcases Nat.eq_zero_or_pos r.policy.budget with hbudget | hbudget
              · exact .inr (.inl hbudget)
              · obtain ⟨script, run, last, t, h, hv, ht, hearly⟩ :=
                  exists_timedOut_early (α := α) hd hb hw hturn hwait hbudget
                have hlate := hall script run last t h hv ht
                lia
  · intro hcond script run last t h hv ht
    obtain ⟨hfirst, hspent⟩ := run_timedOut hd hb h hv ht
    obtain ⟨hw, hturn, -⟩ := (run_course h).2.firstCall ht
    rcases hcond with hwait | hbudget | hraised | hraised
    · lia
    · have hle := firstCall?_le (run_course h).2 ht
      lia
    · rw [hw] at hraised
      cases hraised
    · rw [hturn] at hraised
      cases hraised

/-- A retrier with a second to spend, and a gate that makes the first attempt wait five. -/
def heldBack : Retrier Nat where
  policy := ⟨.seconds 1, .seconds 1, .seconds 1, 1, false⟩
  gate := .ofList [.seconds 5, 0]
  action := "GetDisk"

theorem timedOut_from_firstCall_heldBack :
    heldBack.deadline = none ∧
      (((0 : Nanos) + heldBack.policy.budget : Nanos) : Instant) ≤ Instant.latest ∧
      ¬ ∀ (script : Nat → Reply (Except Setback Unit)) run last t,
        heldBack.run script ⟨{}, 0⟩ = some run → run.verdict = .error (.timedOut last) →
        run.trace.firstCall? heldBack.stage = some t →
        t + heldBack.policy.budget ≤ run.world.clock.now := by
  have hb : (((0 : Nanos) + heldBack.policy.budget : Nanos) : Instant) ≤ Instant.latest := by
    decide +kernel
  refine ⟨rfl, hb, fun hall => ?_⟩
  have hcond := (timedOut_from_firstCall_iff heldBack ⟨{}, 0⟩ rfl hb).2.mp hall
  revert hcond
  decide +kernel

/-- Held back for longer than its budget, a run is out of time as soon as its first call fails. -/
theorem heldBack_timedOut_early :
    heldBack.deadline = none ∧
      (((0 : Nanos) + heldBack.policy.budget : Nanos) : Instant) ≤ Instant.latest ∧
      ∃ run, heldBack.run (neverReady (α := Unit) 0) ⟨{}, 0⟩ = some run ∧
        run.verdict = .error (.timedOut (.status "Creating" none)) ∧
        run.trace.firstCall? heldBack.stage = some (.seconds 5) ∧
        run.world.clock.now = .seconds 5 ∧
        ¬ Nanos.seconds 5 + heldBack.policy.budget ≤ run.world.clock.now := by
  have hb : heldBack.HoldsEnd 0 := by
    unfold HoldsEnd
    decide +kernel
  have hspent : heldBack.budgetEnd 0 ≤
      (heldBack.afterCall (neverReady (α := Unit) 0) 0 ⟨{}, 0⟩).clock.now := by
    decide +kernel
  obtain ⟨run, hrun, hv, hworld, hfirst⟩ :=
    run_of_spent (w := ⟨{}, 0⟩) hb rfl rfl rfl hspent
  have hnow : run.world.clock.now = .seconds 5 := by
    rw [hworld]
    rfl
  refine ⟨rfl, by decide +kernel, run, hrun, hv, hfirst, hnow, ?_⟩
  rw [hnow]
  decide +kernel

end Retrier

end Settle
