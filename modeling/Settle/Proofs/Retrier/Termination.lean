import Mathlib.Algebra.Order.Floor.Div
import Settle.Proofs.Policy.Delay
import Settle.Proofs.Retrier.Pace

/-! # Runs come to an end

Every delay between attempts takes time off what is left of the budget, or uses it up and leaves
one attempt. So the shortest delay bounds the calls of a run, whatever is answered and however long
turns and calls take. -/

namespace Settle

/-- The delay that was decided on, if any. -/
def Decision.delay? : Decision → Option Nanos
  | .giveUp => none
  | .retryAfter delay => some delay

namespace Retrier

variable {σ α : Type} {r : Retrier σ} {script : Nat → Reply (Except Setback α)} {start : Nanos}
  {made fuel least n : Nat} {w : World σ} {run : Run σ α}

/-! ## Delays of a run -/

/-- The delay that the policy decides on after a failed attempt, before it is cut at the end of the
budget. -/
def decided? (r : Retrier σ) (start : Nanos) : Event → Option Nanos
  | .retrying _ attempt now _ _ =>
    (r.policy.next (r.draw attempt) attempt (now - start)).delay?
  | _ => none

/-- None of the delays that the policy decides on in these events is below `least`. -/
def DelaysFrom (r : Retrier σ) (start least : Nanos) (t : Trace) : Prop :=
  ∀ e ∈ t, ∀ d, r.decided? start e = some d → least ≤ d

theorem delaysFrom_attempt {x : Event} {rest : Trace}
    (h : r.DelaysFrom start least (r.opening w ++ x :: rest)) :
    (∀ d, r.decided? start x = some d → least ≤ d) ∧ r.DelaysFrom start least rest :=
  ⟨h x (by simp), fun e he => h e (by simp [he])⟩

/-! ## Calls that are still to come -/

/-- The most calls that can follow from `w` on, if no delay is below `least`: the next one, and one
for each time that `least` is begun in what is left of the budget. -/
def callsLeft (r : Retrier σ) (start least : Nanos) (w : World σ) : Nat :=
  if w.clock.raised then 0 else 1 + r.remaining start w.clock.now ⌈/⌉ least

theorem callsLeft_of_raised (h : w.clock.raised = true) : r.callsLeft start least w = 0 :=
  if_pos h

theorem callsLeft_of_unraised (h : w.clock.raised = false) :
    r.callsLeft start least w = 1 + r.remaining start w.clock.now ⌈/⌉ least := by
  rw [callsLeft, h, if_neg (by decide)]

theorem callsLeft_le (hb : r.HoldsEnd w.clock.now) (hleast : 0 < least) :
    r.callsLeft w.clock.now least w ≤ 1 + r.policy.budget ⌈/⌉ least := by
  have hend := budgetEnd_le hb
  have hleft : r.remaining w.clock.now w.clock.now ≤ r.policy.budget := by
    unfold remaining
    lia
  unfold callsLeft
  split
  · exact Nat.zero_le _
  · exact Nat.add_le_add_left ((gc_mul_ceilDiv hleast).monotone_l hleft) 1

/-- What takes `least` off a span, or uses it up, leaves room for one less. -/
theorem ceilDiv_lt {left span : Nat} (hleast : 0 < least) (hspan : 0 < span)
    (h : left = 0 ∨ left + least ≤ span) : left ⌈/⌉ least < span ⌈/⌉ least := by
  have hcover : span ≤ least * (span ⌈/⌉ least) :=
    (ceilDiv_le_iff_le_mul hleast).mp (Nat.le_refl _)
  have hpos : 0 < span ⌈/⌉ least :=
    Nat.pos_of_ne_zero fun hzero => by simp [hzero] at hcover; omega
  refine Nat.lt_of_le_pred hpos ((ceilDiv_le_iff_le_mul hleast).mpr ?_)
  rw [Nat.pred_eq_sub_one, Nat.mul_sub_one]
  omega

/-- A failed attempt and its delay use up one of the calls that are left. -/
theorem callsLeft_afterBackoff {delay : Nanos} {cause : Cause} (hleast : 0 < least)
    (hw : w.clock.raised = false)
    (hn : r.next start (made + 1) (r.afterCall script made w).clock.now = .retryAfter delay)
    (hdelay : ∀ d, r.decided? start (.retrying r.action (made + 1)
      (r.afterCall script made w).clock.now delay cause) = some d → least ≤ d) :
    1 + r.callsLeft start least (r.afterBackoff script made delay w) ≤
      r.callsLeft start least w := by
  obtain ⟨d, hd, hcut, hleft⟩ := exists_of_next_eq_retryAfter hn
  rw [callsLeft_of_unraised hw]
  cases hraised : (r.afterBackoff script made delay w).clock.raised with
  | true =>
      rw [callsLeft_of_raised hraised]
      exact Nat.le_add_right 1 _
  | false =>
      have hnow : (r.afterBackoff script made delay w).clock.now =
          (r.afterCall script made w).clock.now + delay := (Clock.wait_unraised hraised).2.1
      have hcall : w.clock.now ≤ (r.afterCall script made w).clock.now := now_le_afterCall
      have hatLeast := hdelay d (by rw [decided?, hd, Decision.delay?])
      rw [callsLeft_of_unraised hraised, hnow]
      refine Nat.add_le_add_left (Nat.one_add _ ▸ ceilDiv_lt hleast ?_ ?_) 1
      · unfold remaining at hleft ⊢
        lia
      · unfold remaining at hcut hleft ⊢
        lia

/-! ## The loop -/

theorem Course.calls_le (h : Course r script start made w run) (hleast : 0 < least)
    (hdelays : r.DelaysFrom start least run.trace) :
    run.trace.calls r.stage ≤ r.callsLeft start least w := by
  induction h with
  | withdrawn => exact Nat.zero_le _
  | interrupted => exact Nat.zero_le _
  | succeeded hw | refused hw | exhausted hw =>
      rw [callsLeft_of_unraised hw, calls_attempt rfl]
      exact Nat.le_add_right 1 _
  | retried hw _ _ hn _ ih =>
      rw [Run.trace_after, List.append_assoc, List.singleton_append] at hdelays ⊢
      obtain ⟨hdelay, hrest⟩ := delaysFrom_attempt hdelays
      rw [calls_attempt rfl]
      exact Nat.le_trans (Nat.add_le_add_left (ih hrest) 1)
        (callsLeft_afterBackoff hleast hw hn hdelay)

theorem Endless.lt_callsLeft {t : Trace} (h : Endless r script start fuel made w t)
    (hleast : 0 < least) (hdelays : r.DelaysFrom start least t) :
    fuel < r.callsLeft start least w := by
  induction h with
  | counted hw =>
      rw [callsLeft_of_unraised hw, Nat.add_comm]
      exact Nat.succ_pos _
  | again hw _ _ hn _ ih =>
      obtain ⟨hdelay, hrest⟩ := delaysFrom_attempt hdelays
      rw [← Nat.succ_le_iff, ← Nat.one_add]
      exact Nat.le_trans (Nat.add_le_add_left (ih hrest) 1)
        (callsLeft_afterBackoff hleast hw hn hdelay)

/-! ## The whole run -/

/-- A run from `w` makes at most `most` calls, and returns after them: only if these are more than
can be counted may it use up the count instead. -/
structure EndsWithin (r : Retrier σ) (script : Nat → Reply (Except Setback α)) (w : World σ)
    (most : Nat) : Prop where
  calls_le : (r.events script w).calls r.stage ≤ most
  returns : r.HoldsEnd w.clock.now → (∃ run, r.run script w = some run) ∨
    (r.events script w).calls r.stage = maxAttempts ∧ maxAttempts < most

/-- A run makes one call, and at most one for each time that its shortest delay is begun in the
budget of its policy. -/
theorem run_endsWithin (hleast : 0 < least)
    (hdelays : r.DelaysFrom w.clock.now least (r.events script w)) :
    r.EndsWithin script w (1 + r.policy.budget ⌈/⌉ least) := by
  by_cases hb : r.HoldsEnd w.clock.now
  · have hbound := callsLeft_le hb hleast
    cases hrun : r.run script w with
    | some run =>
        have hcalls := (run_course hrun).2.calls_le hleast (events_of_run hrun ▸ hdelays)
        refine ⟨?_, fun _ => .inl ⟨run, hrun⟩⟩
        rw [events_of_run hrun]
        exact Nat.le_trans hcalls hbound
    | none =>
        have hendless := endless_of_run hb hrun
        have hcounted := Nat.lt_of_lt_of_le (hendless.lt_callsLeft hleast hdelays) hbound
        have hcalls := hendless.calls_eq
        exact ⟨hcalls ▸ Nat.le_of_lt hcounted, fun _ => .inr ⟨hcalls, hcounted⟩⟩
  · refine ⟨?_, fun hheld => (hb hheld).elim⟩
    rw [events_of_not_holdsEnd hb]
    exact Nat.zero_le _

/-- A retrier with a second for its attempts, a third of which it does not quite wait each time. -/
def everyThird : Retrier Unit :=
  .ungated ⟨.seconds 1, .millis 300, .millis 300, 2, false⟩ none

/-- The bound is met: the fifth call comes where the budget ends. -/
theorem run_endsWithin_everyThird : ∃ run : Run Unit Unit,
    everyThird.run (neverReady 0) ⟨{}, ()⟩ = some run ∧ run.trace.calls .issue = 5 ∧
      everyThird.DelaysFrom 0 (.millis 300)
        (everyThird.events (neverReady (α := Unit) 0) ⟨{}, ()⟩) ∧
      everyThird.EndsWithin (neverReady (α := Unit) 0) ⟨{}, ()⟩ 5 := by
  have h : (everyThird.run (neverReady (α := Unit) 0) ⟨{}, ()⟩).map (fun run =>
      (run.trace.calls .issue, run.trace.filterMap (everyThird.decided? 0))) =
        some (5, [.millis 300, .millis 300, .millis 300, .millis 300]) := by
    decide +kernel
  obtain ⟨run, hrun, hends⟩ := Option.map_eq_some_iff.mp h
  obtain ⟨hfive, hdecided⟩ := Prod.mk.inj hends
  have hdelays : everyThird.DelaysFrom 0 (.millis 300)
      (everyThird.events (neverReady (α := Unit) 0) ⟨{}, ()⟩) := by
    rw [events_of_run hrun]
    intro e he d hd
    have hmem : d ∈ run.trace.filterMap (everyThird.decided? 0) :=
      List.mem_filterMap.mpr ⟨e, he, hd⟩
    rw [hdecided] at hmem
    simp at hmem
    exact Nat.le_of_eq hmem.symm
  exact ⟨run, hrun, hfive, hdelays, run_endsWithin (by decide) hdelays⟩

/-! ## A run with more calls than are counted -/

/-- Five seconds for delays of one nanosecond. -/
def hasty : Retrier Unit := .ungated ⟨.seconds 5, 1, 1, 1, false⟩ none

theorem hasty_delay (n : Nat) : hasty.policy.delay n = 1 := by
  have hfactor : 1 ≤ hasty.policy.factor := by
    rw [hasty, ungated]
    exact Binary64.one_le_one
  exact Policy.delay_of_flat hfactor (Nanos.readsBack_of_lt (by decide)) rfl n

theorem hasty_pace (n : Nat) : hasty.pace (neverReady (α := Unit) 0) 0 n = n := by
  induction n with
  | zero => rfl
  | succ n ih =>
      rw [pace, ih, hasty_delay, neverReady]
      rfl

theorem hasty_goesOn (hn : n < maxAttempts) : hasty.GoesOn (neverReady (α := Unit) 0) 0 n := by
  refine ⟨⟨_, rfl⟩, ?_⟩
  have hspent : maxAttempts < hasty.spentAt 0 := by decide
  rw [hasty_pace]
  exact Nat.lt_trans hn hspent

/-- No delay is below a nanosecond and the budget can be held, but the run does not return. -/
theorem hasty_not_returns :
    hasty.HoldsEnd 0 ∧
      hasty.DelaysFrom 0 1 (hasty.events (neverReady (α := Unit) 0) ⟨{}, ()⟩) ∧
      ¬ ∃ run, hasty.run (neverReady (α := Unit) 0) ⟨{}, ()⟩ = some run ∧
        run.trace.calls .issue ≤ 1 + hasty.policy.budget ⌈/⌉ (1 : Nanos) := by
  have hb : hasty.HoldsEnd 0 := holdsEnd_of_held (by decide)
  have hu : hasty.Unhindered (neverReady (α := Unit) 0) :=
    ⟨rfl, rfl, fun _ _ => rfl, fun _ => rfl⟩
  refine ⟨hb, fun e _ d hd => ?_, ?_⟩
  · cases e with
    | retrying action attempt now delay cause =>
        rw [decided?, Policy.next, hasty_delay] at hd
        split at hd
        · cases hd
        · exact Nat.le_of_eq (Option.some.inj hd)
    | _ => cases hd
  · rintro ⟨run, hrun, -⟩
    have hnone := run_endless hu (w := ⟨{}, ()⟩) ⟨rfl, rfl⟩ hb fun n hn => hasty_goesOn hn
    rw [hrun] at hnone
    cases hnone

end Retrier

end Settle
