import Settle.Proofs.Retrier.FirstCall

/-! # Deadlines as budgets

A run looks at its policy and its deadline only through what follows a failed attempt. There a
deadline that is `d` after the start means the same as a budget of `d`, so the two can be
exchanged. -/

namespace Settle.Retrier

variable {σ α : Type} {r : Retrier σ} {script : Nat → Reply (Except Setback α)} {start : Nanos}
  {made : Nat} {w : World σ} {p : Policy} {deadline : Option Instant}

/-! ## Decisions that agree -/

/-- The same calls under another policy and another deadline. -/
def governed (r : Retrier σ) (p : Policy) (deadline : Option Instant) : Retrier σ :=
  { r with policy := p, deadline := deadline }

/-- What follows a failed attempt is the same, whenever the failure comes. -/
def DecidesAlike (r r' : Retrier σ) (start : Nanos) : Prop :=
  ∀ n now, start ≤ now → r'.next start n now = r.next start n now

theorem next_congr {r r' : Retrier σ} {now : Nanos} (n : Nat)
    (hleft : r'.remaining start now = r.remaining start now)
    (hpolicy : r.remaining start now ≠ 0 → r'.policy.next (r'.draw n) n (now - start) =
      r.policy.next (r.draw n) n (now - start)) :
    r'.next start n now = r.next start n now := by
  unfold Retrier.next
  by_cases hzero : r.remaining start now = 0
  · simp only [hleft, hzero, if_true]
  · simp only [hleft, hzero, if_false, hpolicy hzero]

theorem conclude_alike (h : r.DecidesAlike (r.governed p deadline) start)
    (hs : start ≤ w.clock.now) (n : Nat) (answer : Except Setback α) :
    (r.governed p deadline).conclude start n w answer = r.conclude start n w answer := by
  rcases answer with (cause | cause) | v
  · have hnext := h n w.clock.now hs
    simp only [conclude, hnext]
    rfl
  · rfl
  · rfl

/-- An attempt that begins after the start goes the same way under both. -/
theorem attempt_alike (h : r.DecidesAlike (r.governed p deadline) start)
    (hs : start ≤ w.clock.now) :
    (r.governed p deadline).attempt script start made w = r.attempt script start made w := by
  have hsame : ((r.governed p deadline).withdrawal? start made w : Option (Run σ α)) =
      r.withdrawal? start made w := rfl
  cases hcall : (r.withdrawal? start made w : Option (Run σ α)) with
  | some run => rw [attempt_of_withdrawal hcall, attempt_of_withdrawal (hsame.trans hcall)]
  | none =>
      obtain ⟨hw, ht⟩ := withdrawal?_eq_none_iff.mp hcall
      have hs : start ≤ (r.afterCall script made w).clock.now := Nat.le_trans hs now_le_afterCall
      calc (r.governed p deadline).attempt script start made w
          = ((r.governed p deadline).conclude start (made + 1) (r.afterCall script made w)
              (script made).answer).after (r.opening w) := attempt_called hw ht
        _ = (r.conclude start (made + 1) (r.afterCall script made w)
              (script made).answer).after (r.opening w) := by rw [conclude_alike h hs]
        _ = r.attempt script start made w := (attempt_called hw ht).symm

theorem now_le_of_again {events : Trace} {next : World σ}
    (h : r.attempt script start made w = .again events next) :
    w.clock.now ≤ next.clock.now := by
  obtain ⟨cause, delay, -, -, -, -, -, rfl⟩ := attempt_eq_again h
  exact now_le_afterBackoff

theorem loop_alike (h : r.DecidesAlike (r.governed p deadline) start) (fuel : Nat)
    (hs : start ≤ w.clock.now) :
    (r.governed p deadline).loop script start fuel made w = r.loop script start fuel made w := by
  induction fuel generalizing made w with
  | zero => rfl
  | succ fuel ih =>
      have hattempt : (r.governed p deadline).attempt script start made w =
          r.attempt script start made w := attempt_alike h hs
      cases ha : r.attempt script start made w with
      | done run => rw [loop, loop, hattempt, ha]
      | again events next =>
          have hnext : start ≤ next.clock.now := Nat.le_trans hs (now_le_of_again ha)
          rw [loop, loop, hattempt, ha]
          simp only [ih hnext]

theorem attempts_alike (h : r.DecidesAlike (r.governed p deadline) start) (fuel : Nat)
    (hs : start ≤ w.clock.now) :
    (r.governed p deadline).attempts script start fuel made w =
      r.attempts script start fuel made w := by
  induction fuel generalizing made w with
  | zero => rfl
  | succ fuel ih =>
      have hattempt : (r.governed p deadline).attempt script start made w =
          r.attempt script start made w := attempt_alike h hs
      cases ha : r.attempt script start made w with
      | done run => rw [attempts, attempts, hattempt, ha]
      | again events next =>
          have hnext : start ≤ next.clock.now := Nat.le_trans hs (now_le_of_again ha)
          rw [attempts, attempts, hattempt, ha]
          simp only [ih hnext]

/-! ## A budget in place of a deadline -/

/-- The budget that lasts until the deadline `d`, if it is shorter than the policy's; a deadline
that is past leaves none. -/
def budgetUntil (r : Retrier σ) (start : Nanos) (d : Instant) : Nanos :=
  min r.policy.budget (d - start).toNat

/-- The same run without a deadline, under another budget. -/
def withBudget (r : Retrier σ) (budget : Nanos) : Retrier σ :=
  r.governed (r.policy.withBudget budget) none

section

variable {d : Instant} (hd : r.deadline = some d)
  (hb : ((start + r.policy.budget : Nanos) : Instant) ≤ Instant.latest)

include hd hb

theorem budgetEnd_until :
    (r.withBudget (r.budgetUntil start d)).budgetEnd start =
      max (start : Instant) (r.budgetEnd start) := by
  have hheld : ((start + r.budgetUntil start d : Nanos) : Instant) ≤ Instant.latest := by
    unfold budgetUntil
    lia
  rw [budgetEnd_of_held rfl hheld]
  simp only [budgetEnd, hd, if_pos hb]
  change ((start + r.budgetUntil start d : Nanos) : Instant) = _
  unfold budgetUntil
  lia

theorem remaining_until {now : Nanos} (hs : start ≤ now) :
    (r.withBudget (r.budgetUntil start d)).remaining start now = r.remaining start now := by
  rw [remaining, remaining, budgetEnd_until hd hb]
  lia

/-- With time left, the shorter budget has not run out either. -/
theorem decidesAlike_until : r.DecidesAlike (r.withBudget (r.budgetUntil start d)) start := by
  intro n now hs
  refine next_congr n (remaining_until hd hb hs) fun hleft => ?_
  have hnow : (now : Instant) < min ((start + r.policy.budget : Nanos) : Instant) d := by
    simp only [remaining, budgetEnd, hd, if_pos hb] at hleft
    lia
  have hpolicy : ¬ r.policy.budget ≤ now - start := by lia
  have huntil : ¬ r.budgetUntil start d ≤ now - start := by
    unfold budgetUntil
    lia
  rw [Policy.next, Policy.next, if_neg hpolicy]
  exact if_neg huntil

end

theorem holdsEnd_until {d : Instant}
    (hb : ((start + r.policy.budget : Nanos) : Instant) ≤ Instant.latest) :
    (r.withBudget (r.budgetUntil start d)).HoldsEnd start := by
  refine holdsEnd_of_held ?_
  change ((start + r.budgetUntil start d : Nanos) : Instant) ≤ Instant.latest
  unfold budgetUntil
  lia

/-- A run under a deadline is the run under the budget that lasts until it: both book the same
turns, make the same calls at the same times and end with the same result, if they end. -/
theorem run_deadline (r : Retrier σ) (script : Nat → Reply (Except Setback α)) (w : World σ)
    {d : Instant} (hd : r.deadline = some d)
    (hb : ((w.clock.now + r.policy.budget : Nanos) : Instant) ≤ Instant.latest) :
    r.run script w =
        (r.withBudget (min r.policy.budget (d - w.clock.now).toNat)).run script w ∧
      r.events script w =
        (r.withBudget (min r.policy.budget (d - w.clock.now).toNat)).events script w := by
  have hheld : (r.withBudget (r.budgetUntil w.clock.now d)).HoldsEnd w.clock.now :=
    holdsEnd_until hb
  have halike : r.DecidesAlike (r.withBudget (r.budgetUntil w.clock.now d)) w.clock.now :=
    decidesAlike_until hd hb
  refine ⟨?_, ?_⟩
  · calc r.run script w
        = r.loop script w.clock.now maxAttempts 0 w := run_eq_loop (holdsEnd_of_held hb)
      _ = (r.withBudget (r.budgetUntil w.clock.now d)).loop script w.clock.now maxAttempts 0 w :=
          (loop_alike halike maxAttempts (Nat.le_refl _)).symm
      _ = (r.withBudget (r.budgetUntil w.clock.now d)).run script w := (run_eq_loop hheld).symm
  · calc r.events script w
        = r.attempts script w.clock.now maxAttempts 0 w := events_of_holdsEnd (holdsEnd_of_held hb)
      _ = (r.withBudget (r.budgetUntil w.clock.now d)).attempts script w.clock.now maxAttempts 0
            w := (attempts_alike halike maxAttempts (Nat.le_refl _)).symm
      _ = (r.withBudget (r.budgetUntil w.clock.now d)).events script w :=
          (events_of_holdsEnd hheld).symm

/-- A retrier whose deadline comes long before its budget is spent. -/
def hurried : Retrier Nat where
  policy := ⟨.seconds 60, .millis 100, .millis 400, 2, true⟩
  gate := .ofList [5, 0, 7]
  action := "GetDisk"
  deadline := some (Nanos.millis 250 : Nanos)
  draw n := if n = 1 then 1 else 0

theorem run_deadline_hurried :
    hurried.deadline = some (Nanos.millis 250 : Nanos) ∧
      (((0 : Nanos) + hurried.policy.budget : Nanos) : Instant) ≤ Instant.latest ∧
      hurried.run alwaysPending ⟨{}, 0⟩ =
        (hurried.withBudget (.millis 250)).run alwaysPending ⟨{}, 0⟩ ∧
      (hurried.run alwaysPending ⟨{}, 0⟩).map (fun run => run.trace.calls .issue) = some 2 := by
  have hb : (((0 : Nanos) + hurried.policy.budget : Nanos) : Instant) ≤ Instant.latest := by
    decide +kernel
  have hbudget : min hurried.policy.budget
      ((Nanos.millis 250 : Nanos) - ((0 : Nanos) : Instant)).toNat = .millis 250 := by
    decide +kernel
  have hrun := (run_deadline hurried alwaysPending ⟨{}, 0⟩ rfl hb).1
  rw [hbudget] at hrun
  exact ⟨rfl, hb, hrun, by decide +kernel⟩

end Settle.Retrier
